import CilCapture.Il.Opcode
import CilCapture.Token
import CilCapture.Text.Shortest

/-!
# Instructions

A decoded instruction addresses the targets of its jumps by their index in the stream, so that a
stream can be edited and laid out again with every jump still naming the same instruction.
Floating-point immediates are kept as bit patterns.
-/

namespace CilCapture.Il

inductive Operand where
  | none
  | int8 (value : Int8)
  | uint8 (value : UInt8)
  | uint16 (value : UInt16)
  | int32 (value : Int32)
  | int64 (value : Int64)
  | float32 (bits : UInt32)
  | float64 (bits : UInt64)
  | token (value : Token)
  /-- The index of the instruction that a branch goes to. -/
  | target (index : Nat)
  /-- The indices of the instructions that a jump table goes to. -/
  | switch (indices : List Nat)
  deriving DecidableEq, Repr, Inhabited

structure Instruction where
  opcode : Opcode
  /-- Where the instruction stood in the stream it was decoded from, as a word. -/
  offset : UInt32
  operand : Operand
  deriving DecidableEq, Repr, Inhabited

namespace Instruction

/-- Bytes of the instruction once laid out. -/
def size (instruction : Instruction) : Nat :=
  instruction.opcode.size +
    match instruction.operand with
    | .switch indices => 4 + 4 * indices.length
    | _ => instruction.opcode.operand.size

/-- The token operand, if there is one. -/
def token? (instruction : Instruction) : Option Token :=
  match instruction.operand with
  | .token token => some token
  | _ => none

end Instruction

namespace Operand

/-- Immediates are positional between one ten-thousandth and ten quadrillion. -/
def immediateStyle : Text.DecimalStyle := ⟨-4, 16, "NaN", "inf"⟩

/-- The operand as a message shows it. -/
def text : Operand → String
  | none => "None"
  | int8 value => "Int8(" ++ signedDecimal value.toInt ++ ")"
  | uint8 value => "UInt8(" ++ decimal value.toNat ++ ")"
  | uint16 value => "UInt16(" ++ decimal value.toNat ++ ")"
  | int32 value => "Int32(" ++ signedDecimal value.toInt ++ ")"
  | int64 value => "Int64(" ++ signedDecimal value.toInt ++ ")"
  | float32 bits => "Float32(" ++ immediateStyle.spell .single bits.toNat ++ ")"
  | float64 bits => "Float64(" ++ immediateStyle.spell .double bits.toNat ++ ")"
  | token value => "Token(" ++ value.describe ++ ")"
  | target index => "Target(" ++ decimal index ++ ")"
  | switch indices => "Switch([" ++ ", ".intercalate (indices.map decimal) ++ "])"

end Operand

end CilCapture.Il
