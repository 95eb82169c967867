import CilCapture.Text.Numeral

/-!
# Metadata tokens

A token is one word: its high byte names a metadata table (or heap), its low three bytes a row of
that table, counted from one.
-/

namespace CilCapture

structure Token where
  value : UInt32
  deriving DecidableEq, Repr, Inhabited

namespace Token

def methodTable : UInt8 := 0x06

def signatureTable : UInt8 := 0x11

def null : Token := ⟨0⟩

/-- The token of a row of a table; a row keeps its low three bytes. -/
def ofParts (table : UInt8) (row : UInt32) : Token :=
  ⟨(table.toUInt32 <<< 24) ||| (row &&& 0x00FFFFFF)⟩

def ofMethod (row : UInt32) : Token := ofParts methodTable row

/-- The table that the high byte names. -/
def table (token : Token) : UInt8 := (token.value >>> 24).toUInt8

/-- The row that the low three bytes name. -/
def row (token : Token) : UInt32 := token.value &&& 0x00FFFFFF

def isNull (token : Token) : Bool := token.value == 0

/-- The token as a message shows it: eight hexadecimal digits. -/
def text (token : Token) : String := "0x" ++ hex 8 token.value.toNat

/-- The token with its parts spelled out. -/
def describe (token : Token) : String :=
  "Token(0x" ++ (hex 8 token.value.toNat).toLower ++ ", table: 0x" ++
    (hex 2 token.table.toNat).toLower ++ ", row: " ++ decimal token.row.toNat ++ ")"

end Token

end CilCapture
