import CilCapture.Bytes

/-!
# Opcodes of the intermediate language

An opcode is a one-byte value, or a two-byte value whose first byte is `Opcode.escape`. Its operand
kind fixes the form of what follows it in a stream.
-/

namespace CilCapture.Il

inductive OperandKind where
  | none
  | int8
  | uint8
  | uint16
  | int32
  | int64
  | float32
  | float64
  | token
  /-- A displacement of one byte. -/
  | shortBranch
  /-- A displacement of four bytes. -/
  | branch
  /-- A count of four bytes and as many displacements of four bytes. -/
  | switch
  deriving DecidableEq, Repr, Inhabited

namespace OperandKind

/-- Bytes of the operand; of a jump table only its count. -/
def size : OperandKind → Nat
  | none => 0
  | int8 | uint8 | shortBranch => 1
  | uint16 => 2
  | int32 | float32 | token | branch | switch => 4
  | int64 | float64 => 8

def name : OperandKind → String
  | none => "None"
  | int8 => "Int8"
  | uint8 => "UInt8"
  | uint16 => "UInt16"
  | int32 => "Int32"
  | int64 => "Int64"
  | float32 => "Float32"
  | float64 => "Float64"
  | token => "Token"
  | shortBranch => "ShortBranch"
  | branch => "Branch"
  | switch => "Switch"

end OperandKind

/-- An opcode: its value, its mnemonic and the form of its operand. -/
structure Opcode where
  value : UInt16
  name : String
  operand : OperandKind
  deriving DecidableEq, Repr, Inhabited

namespace Opcode

/-- The byte that starts every two-byte opcode. -/
def escape : UInt8 := 0xFE

def isTwoByte (opcode : Opcode) : Bool := opcode.value > 0xFF

def size (opcode : Opcode) : Nat := if opcode.isTwoByte then 2 else 1

/-- The opcode's bytes: the high byte first. -/
def encode (opcode : Opcode) : Bytes :=
  if opcode.isTwoByte then [(opcode.value >>> 8).toUInt8, opcode.value.toUInt8]
  else [opcode.value.toUInt8]

def call : UInt16 := 0x28

def ret : UInt16 := 0x2A

def ldstr : UInt16 := 0x72

end Opcode

end CilCapture.Il
