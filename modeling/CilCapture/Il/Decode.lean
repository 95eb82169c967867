import CilCapture.Fault
import CilCapture.Il.Boundary
import CilCapture.Il.OpcodeTable

/-!
# Reading a stream

A stream is read twice. The first pass, `scan`, cuts it into instructions whose jumps name byte
offsets, refusing jumps that leave the stream; the second, `resolve`, replaces each such offset by
the index of the instruction that starts there, refusing offsets between two starts.
-/

namespace CilCapture.Il

/-- An operand as first read: complete, or one or more absolute byte offsets to jump to. -/
inductive ScannedOperand where
  | immediate (operand : Operand)
  | jump (target : Nat)
  | jumps (targets : List Nat)
  deriving DecidableEq, Repr

structure Scanned where
  opcode : Opcode
  offset : Nat
  operand : ScannedOperand
  deriving DecidableEq, Repr

/-- Bytes that the instruction was read from. -/
def Scanned.size (scanned : Scanned) : Nat :=
  scanned.opcode.size +
    match scanned.operand with
    | .jumps targets => 4 + 4 * targets.length
    | _ => scanned.opcode.operand.size

/-- A number of `width` bytes from the front. -/
def takeNumber (width : Nat) (bytes : Bytes) : Except Fault (Nat × Bytes) :=
  match Bytes.readNat width bytes with
  | some result => .ok result
  | none => .error .outOfBounds

/-- The opcode at the front of `bytes`, which stand at `offset`. -/
def takeOpcode (offset : Nat) (bytes : Bytes) : Except Fault (Opcode × Bytes) := do
  let (first, rest) ← takeNumber 1 bytes
  let (value, rest) ←
    if first = Opcode.escape.toNat then do
      let (second, rest) ← takeNumber 1 rest
      pure (0xFE00 + second, rest)
    else pure (first, rest)
  match Opcode.ofValue? (UInt16.ofNat value) with
  | some opcode => return (opcode, rest)
  | none => throw (.malformed (.unknownOpcode (UInt16.ofNat value) offset))

/-- Where a jump of the instruction at `offset`, whose next instruction is at `next`, goes in a
stream of `total` bytes. -/
def jumpTarget (total offset next : Nat) (displacement : Int) : Except Fault Nat :=
  let target := (next : Int) + displacement
  if target < 0 ∨ (total : Int) ≤ target then
    .error (.malformed (.branchLeaves offset target))
  else .ok target.toNat

def displacement32 (bits : Nat) : Int := (UInt32.ofNat bits).toInt32.toInt

def displacement8 (bits : Nat) : Int := (UInt8.ofNat bits).toInt8.toInt

def takeDisplacements : (count : Nat) → Bytes → Except Fault (List Int × Bytes)
  | 0, bytes => .ok ([], bytes)
  | count + 1, bytes => do
    let (bits, rest) ← takeNumber 4 bytes
    let (displacements, rest) ← takeDisplacements count rest
    return (displacement32 bits :: displacements, rest)

/-- The operand of an opcode at `offset` in a stream of `total` bytes. -/
def takeOperand (total offset : Nat) (opcode : Opcode) (bytes : Bytes) :
    Except Fault (ScannedOperand × Bytes) :=
  let next := offset + opcode.size + opcode.operand.size
  let immediate (make : Nat → Operand) : Except Fault (ScannedOperand × Bytes) := do
    let (bits, rest) ← takeNumber opcode.operand.size bytes
    return (.immediate (make bits), rest)
  match opcode.operand with
  | .none => .ok (.immediate .none, bytes)
  | .int8 => immediate fun bits => .int8 (UInt8.ofNat bits).toInt8
  | .uint8 => immediate fun bits => .uint8 (UInt8.ofNat bits)
  | .uint16 => immediate fun bits => .uint16 (UInt16.ofNat bits)
  | .int32 => immediate fun bits => .int32 (UInt32.ofNat bits).toInt32
  | .int64 => immediate fun bits => .int64 (UInt64.ofNat bits).toInt64
  | .float32 => immediate fun bits => .float32 (UInt32.ofNat bits)
  | .float64 => immediate fun bits => .float64 (UInt64.ofNat bits)
  | .token => immediate fun bits => .token ⟨UInt32.ofNat bits⟩
  | .shortBranch => do
    let (bits, rest) ← takeNumber 1 bytes
    return (.jump (← jumpTarget total offset next (displacement8 bits)), rest)
  | .branch => do
    let (bits, rest) ← takeNumber 4 bytes
    return (.jump (← jumpTarget total offset next (displacement32 bits)), rest)
  | .switch => do
    let (count, rest) ← takeNumber 4 bytes
    if rest.length / 4 < count then throw (.malformed (.switchTooLong offset count))
    let (displacements, rest) ← takeDisplacements count rest
    let targets ← displacements.mapM (jumpTarget total offset (next + 4 * count))
    return (.jumps targets, rest)

/-- The instruction at the front of `bytes`, which stand at `offset` in a stream of `total`. -/
def takeInstruction (total offset : Nat) (bytes : Bytes) : Except Fault (Scanned × Bytes) := do
  let (opcode, rest) ← takeOpcode offset bytes
  let (operand, rest) ← takeOperand total offset opcode rest
  return (⟨opcode, offset, operand⟩, rest)

/-- The instructions of `bytes`, which stand at `offset` in a stream of `total`. Each takes at
least one byte, so `fuel` need not exceed their number. -/
def scanFrom (total : Nat) : (fuel offset : Nat) → Bytes → Except Fault (List Scanned)
  | _, _, [] => .ok []
  | 0, _, _ :: _ => .ok []
  | fuel + 1, offset, bytes => do
    let (scanned, rest) ← takeInstruction total offset bytes
    return scanned :: (← scanFrom total fuel (offset + scanned.size) rest)

/-- The instructions of a stream, jumps by byte offset. -/
def scan (code : Bytes) : Except Fault (List Scanned) :=
  scanFrom code.length code.length 0 code

/-- The index of the instruction that starts at `target`, for a jump of the one at `offset`. -/
def boundary (starts : List Nat) (offset target : Nat) : Except Fault Nat :=
  match boundary? starts target with
  | some index => .ok index
  | none => .error (.malformed (.branchMisses offset target))

/-- A scanned operand of the instruction at `offset` with its jumps by index. -/
def ScannedOperand.resolve (starts : List Nat) (offset : Nat) :
    ScannedOperand → Except Fault Operand
  | .immediate operand => .ok operand
  | .jump target => .target <$> boundary starts offset target
  | .jumps targets => .switch <$> targets.mapM (boundary starts offset)

/-- A scanned instruction with its jumps by index. -/
def Scanned.resolve (starts : List Nat) (scanned : Scanned) : Except Fault Instruction := do
  let operand ← scanned.operand.resolve starts scanned.offset
  return ⟨scanned.opcode, UInt32.ofNat scanned.offset, operand⟩

def decode (code : Bytes) : Except Fault (List Instruction) := do
  let scanned ← scan code
  scanned.mapM (Scanned.resolve (scanned.map Scanned.offset))

end CilCapture.Il
