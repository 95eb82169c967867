/-!
# Numerals

Numbers as text. `Numeral.digits` gives the digits of a number in a base, most significant first
and without leading zeros; `Numeral.render` spells them in capitals; `Numeral.read?` reads an
unsigned numeral: at least one digit of the base, in either case, after at most one plus sign.
-/

namespace CilCapture

namespace Numeral

/-- The digits of `value` in `base`, most significant first; zero is one digit. -/
def digits (base value : Nat) : List Nat :=
  if _h : base < 2 ∨ value < base then [value]
  else digits base (value / base) ++ [value % base]
termination_by value
decreasing_by exact Nat.div_lt_self (by omega) (by omega)

/-- The digit as a character: `0` to `9`, then capitals. -/
def digitChar (digit : Nat) : Char :=
  if digit < 10 then Char.ofNat (48 + digit) else Char.ofNat (55 + digit)

/-- The worth of a digit of `base`, letters in either case. -/
def digitValue? (base : Nat) (c : Char) : Option Nat :=
  let code := c.toNat
  let value :=
    if 48 ≤ code ∧ code ≤ 57 then code - 48
    else if 65 ≤ code ∧ code ≤ 90 then code - 55
    else if 97 ≤ code ∧ code ≤ 122 then code - 87
    else base
  if value < base then some value else none

/-- The numeral of `value`, padded with zeros to at least `width` digits. -/
def render (base width value : Nat) : List Char :=
  let spelled := (digits base value).map digitChar
  List.replicate (width - spelled.length) '0' ++ spelled

/-- The number that digits spell, continuing from `value`; nothing if one is no digit of `base`. -/
def valueFrom? (base : Nat) : (value : Nat) → List Char → Option Nat
  | value, [] => some value
  | value, c :: rest =>
    match digitValue? base c with
    | some digit => valueFrom? base (value * base + digit) rest
    | none => none

/-- The number an unsigned numeral spells: digits of `base` after at most one plus sign. -/
def read? (base : Nat) : List Char → Option Nat
  | [] => none
  | ['+'] => none
  | '+' :: digits => valueFrom? base 0 digits
  | digits => valueFrom? base 0 digits

/-- `read?`, refusing numbers that `bits` bits cannot hold. -/
def readWord? (base bits : Nat) (text : List Char) : Option Nat :=
  match read? base text with
  | some value => if value < Nat.pow 2 bits then some value else none
  | none => none

end Numeral

def decimal (value : Nat) : String := String.ofList (Numeral.render 10 0 value)

def signedDecimal (value : Int) : String :=
  if value < 0 then "-" ++ decimal value.natAbs else decimal value.natAbs

/-- A number in hexadecimal capitals, padded with zeros to `width` digits. -/
def hex (width value : Nat) : String := String.ofList (Numeral.render 16 width value)

end CilCapture
