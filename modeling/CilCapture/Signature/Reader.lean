import CilCapture.Signature.TypeWalk

/-!
# Readers

A reader is a source of bytes with its way to read compressed integers, `readCompressed` unless it
has one of its own. Walking by a reader is the walk over type encodings with every integer read the
reader's way; what is noted on a walk is read byte by byte, so there integers are read as ever.
-/

namespace CilCapture.Signature

/-- A source of bytes and how compressed integers are read from it. -/
class Reader (ρ : Type) extends ByteSource ρ where
  integer : EStateM Fault ρ Nat := readCompressed

instance : Reader RawSource where
  next := RawSource.next

instance {ρ : Type} [ByteSource ρ] : Reader (Recording ρ) where
  next := Recording.next

namespace Reader

variable {ρ : Type} [Reader ρ]

def passInteger : EStateM Fault ρ Unit := do
  let _ ← integer (ρ := ρ)

/-- A compressed integer and as many repetitions of a step. -/
def passCounted (step : EStateM Fault ρ Unit) : EStateM Fault ρ Unit := do
  let count ← integer
  times count step

/-- What follows a tag of each shape, where `nested` passes over a type one level down. -/
def passShape (nested : EStateM Fault ρ Unit) : Shape → EStateM Fault ρ Unit
  | .primitive => pure ()
  | .indexed => passInteger
  | .wrapper => nested
  | .modifier => do
    passInteger
    nested
  | .array => do
    nested
    passInteger
    passCounted passInteger
    passCounted passInteger
  | .instantiation => do
    let _ ← ByteSource.next (ρ := ρ)
    passInteger
    passCounted nested
  | .function => do
    let convention ← ByteSource.next (ρ := ρ)
    if isGenericConvention convention then passInteger
    let parameters ← integer
    times (parameters + 1) nested

/-- Passes over a type encoding with at most `levels` levels, the root among them. -/
def passWithin : (levels : Nat) → EStateM Fault ρ Unit
  | 0 => throw (.malformed (.typeTooDeep maxNesting))
  | levels + 1 => do
    let tag ← ByteSource.next (ρ := ρ)
    match Shape.ofTag? tag with
    | some shape => passShape (passWithin levels) shape
    | none => throw (.malformed (.unknownElement tag))

/-- Passes over one type encoding. -/
def passType : EStateM Fault ρ Unit := passWithin (maxNesting + 1)

end Reader

end CilCapture.Signature
