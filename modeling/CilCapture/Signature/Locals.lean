import CilCapture.Cursor
import CilCapture.Signature.Compressed
import CilCapture.Signature.TypeWalk

/-!
# Signatures of local variables

A local signature is the byte `0x07`, a compressed count and that many type encodings.
`readLocals` makes one from a source that holds the encodings alone; `splitLocals` takes one apart
and refuses anything that is not exactly such a signature.
-/

namespace CilCapture.Signature

/-- The byte that starts a local signature. -/
def localsLead : UInt8 := 0x07

/-- The signature of a single 32-bit integer, for methods whose own locals are not known. -/
def placeholder : Bytes := [localsLead, 0x01, 0x08]

/-- The signature of `count` variables whose encodings follow one another in `encodings`. -/
def buildLocals (count : Nat) (encodings : Bytes) : Except Fault Bytes := do
  let spelled ← compress count
  return localsLead :: spelled ++ encodings

/-- The next `count` type encodings, each on its own. Where one fails, the fault comes with the
number of the encodings before it. -/
def readEncodings {ρ : Type} [ByteSource ρ] :
    (count : Nat) → ρ → EStateM.Result (Nat × Fault) ρ (List Bytes)
  | 0, source => .ok [] source
  | count + 1, source =>
    match copyType source with
    | (.error fault source, _) => .error (0, fault) source
    | (.ok () source, encoding) =>
      match readEncodings count source with
      | .ok encodings source => .ok (encoding :: encodings) source
      | .error (index, fault) source => .error (index + 1, fault) source

/-- A fault in the variable at `index`: what does not parse is told with its index. -/
def inLocal (index : Nat) : Fault → Fault
  | .malformed cause => .malformed (.inLocal index cause)
  | other => other

/-- The complete signature of the next `count` variables of a source. -/
def readLocals {ρ : Type} [ByteSource ρ] (count : Nat) : EStateM Fault ρ Bytes := fun source =>
  match readEncodings count source with
  | .error (index, fault) source => .error (inLocal index fault) source
  | .ok encodings source =>
    match buildLocals count encodings.flatten with
    | .ok blob => .ok blob source
    | .error fault => .error fault source

/-- The variables of a complete local signature. -/
def splitLocals (blob : Bytes) : Except Fault (List Bytes) :=
  match (do
    let lead ← Cursor.next
    if lead ≠ localsLead then throw (.malformed (.notLocals lead))
    readCompressed : EStateM Fault Cursor Nat) (Cursor.ofBytes blob) with
  | .error fault _ => .error fault
  | .ok count cursor =>
    match readEncodings count cursor with
    | .error (_, fault) _ => .error fault
    | .ok encodings cursor =>
      if cursor.hasMore then .error (.malformed (.trailingBytes cursor.remaining count))
      else .ok encodings

end CilCapture.Signature
