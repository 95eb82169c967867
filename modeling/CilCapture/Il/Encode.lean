import CilCapture.Fault
import CilCapture.Il.Layout

/-!
# Writing a stream

Each instruction is written where `layout` puts it; the displacement of a jump is the distance from
the next instruction to its target. A stream has no encoding when an operand is of another kind
than its opcode asks for, when a target is no instruction of the stream, or when a short branch
does not reach.
-/

namespace CilCapture.Il

/-- The distance from `next` to the instruction at `index`. -/
def displacementTo (starts : List Nat) (next index : Nat) : Except Fault Int :=
  match starts[index]? with
  | some target => .ok ((target : Int) - next)
  | none => .error (.malformed (.targetOutside index starts.length))

/-- The operand's bytes for an instruction at `offset` of a stream with the given starts. -/
def encodeOperand (starts : List Nat) (offset : Nat) (instruction : Instruction) :
    Except Fault Bytes :=
  let opcode := instruction.opcode
  let next := offset + instruction.size
  match instruction.operand, opcode.operand with
  | .none, .none => .ok []
  | .int8 value, .int8 => .ok (Bytes.ofNat 1 value.toUInt8.toNat)
  | .uint8 value, .uint8 => .ok (Bytes.ofNat 1 value.toNat)
  | .uint16 value, .uint16 => .ok (Bytes.ofNat 2 value.toNat)
  | .int32 value, .int32 => .ok (Bytes.ofNat 4 value.toUInt32.toNat)
  | .int64 value, .int64 => .ok (Bytes.ofNat 8 value.toUInt64.toNat)
  | .float32 bits, .float32 => .ok (Bytes.ofNat 4 bits.toNat)
  | .float64 bits, .float64 => .ok (Bytes.ofNat 8 bits.toNat)
  | .token token, .token => .ok (Bytes.ofNat 4 token.value.toNat)
  | .target index, .shortBranch => do
    let displacement ← displacementTo starts next index
    if -128 ≤ displacement ∧ displacement ≤ 127 then return Bytes.ofInt 1 displacement
    else throw (.malformed (.shortBranchTooFar opcode offset displacement))
  | .target index, .branch => do
    return Bytes.ofInt 4 (← displacementTo starts next index)
  | .switch indices, .switch => do
    let displacements ← indices.mapM (displacementTo starts next)
    return Bytes.ofNat 4 indices.length ++ (displacements.map (Bytes.ofInt 4)).flatten
  | operand, _ => .error (.malformed (.operandMismatch operand opcode offset))

/-- The bytes of instructions of which the first stands at `offset`. -/
def encodeFrom (starts : List Nat) : (offset : Nat) → List Instruction → Except Fault Bytes
  | _, [] => .ok []
  | offset, instruction :: rest => do
    let operand ← encodeOperand starts offset instruction
    let tail ← encodeFrom starts (offset + instruction.size) rest
    return instruction.opcode.encode ++ operand ++ tail

def encode (instructions : List Instruction) : Except Fault Bytes :=
  encodeFrom (starts instructions) 0 instructions

end CilCapture.Il
