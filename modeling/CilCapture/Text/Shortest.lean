import CilCapture.Text.Numeral

/-!
# Shortest decimals of binary fractions

A binary floating-point value is written with the fewest decimal digits that read back as the same
value, and with the digits nearest to it among those. `BinaryFormat.decode` splits a bit pattern
into a mantissa and a power of two; `shortest` searches, for one digit, two digits and so on, the
two decimals that enclose the value on that grid; `DecimalStyle.spell` lays the digits out.

All arithmetic is exact: a value is a quotient of naturals.
-/

namespace CilCapture.Text

/-- Widths of the fields of a binary interchange format. -/
structure BinaryFormat where
  fractionBits : Nat
  exponentBits : Nat

def BinaryFormat.single : BinaryFormat := ⟨23, 8⟩

def BinaryFormat.double : BinaryFormat := ⟨52, 11⟩

/-- A positive binary value `mantissa * 2 ^ power`. -/
structure BinaryFraction where
  mantissa : Nat
  power : Int
  /-- Whether the next smaller value of the format is only half a step away. -/
  halfStepBelow : Bool

inductive BinaryValue where
  | notANumber
  | infinite (negative : Bool)
  | zero (negative : Bool)
  | finite (negative : Bool) (value : BinaryFraction)

def BinaryFormat.decode (format : BinaryFormat) (bits : Nat) : BinaryValue :=
  let fractions := Nat.pow 2 format.fractionBits
  let exponents := Nat.pow 2 format.exponentBits
  let fraction := bits % fractions
  let exponent := bits / fractions % exponents
  let negative := bits / fractions / exponents % 2 == 1
  let bias : Int := (exponents / 2 : Nat) - 1
  if exponent = exponents - 1 then
    if fraction = 0 then .infinite negative else .notANumber
  else if exponent = 0 then
    if fraction = 0 then .zero negative
    else .finite negative ⟨fraction, 1 - bias - format.fractionBits, false⟩
  else
    .finite negative
      ⟨fractions + fraction, exponent - bias - format.fractionBits,
        fraction == 0 && exponent != 1⟩

structure Quotient where
  numerator : Nat
  denominator : Nat

def Quotient.scaled (count base : Nat) (power : Int) : Quotient :=
  if 0 ≤ power then ⟨count * Nat.pow base power.toNat, 1⟩
  else ⟨count, Nat.pow base (-power).toNat⟩

def Quotient.less (a b : Quotient) : Bool :=
  a.numerator * b.denominator < b.numerator * a.denominator

namespace BinaryFraction

/-- A number of quarter steps of the value's binary place. -/
def quarters (value : BinaryFraction) (count : Nat) : Quotient :=
  .scaled count 2 (value.power - 2)

def quotient (value : BinaryFraction) : Quotient := value.quarters (4 * value.mantissa)

/-- Whether a decimal reads back as the value: it lies between the midpoints to the neighbouring
values, which themselves belong to the value of even mantissa. -/
def reads (value : BinaryFraction) (decimal : Quotient) : Bool :=
  let low := value.quarters (4 * value.mantissa - if value.halfStepBelow then 1 else 2)
  let high := value.quarters (4 * value.mantissa + 2)
  if value.mantissa % 2 = 0 then !decimal.less low && !high.less decimal
  else low.less decimal && decimal.less high

/-- The power of ten just above the value: `10 ^ (magnitude - 1) ≤ value < 10 ^ magnitude`. -/
def magnitude (value : BinaryFraction) : Int :=
  let q := value.quotient
  if q.denominator ≤ q.numerator then
    (Numeral.digits 10 (q.numerator / q.denominator)).length
  else
    1 - ((Numeral.digits 10 ((q.denominator - 1) / q.numerator)).length : Int)

/-- The best decimal on the grid of `10 ^ place` that reads back: of the two neighbours of the
value the nearer one, and the upper one on a tie. -/
def onGrid? (value : BinaryFraction) (place : Int) : Option Nat :=
  let q := value.quotient
  let grid : Quotient := .scaled 1 10 place
  let below := q.numerator * grid.denominator / (q.denominator * grid.numerator)
  let lower : Quotient := .scaled below 10 place
  let upper : Quotient := .scaled (below + 1) 10 place
  match value.reads lower, value.reads upper with
  | true, true =>
    -- The midpoint of the two neighbours decides.
    let middle : Quotient :=
      ⟨(2 * below + 1) * grid.numerator, 2 * grid.denominator⟩
    if q.less middle then some below else some (below + 1)
  | true, false => some below
  | false, true => some (below + 1)
  | false, false => none

/-- The first grid with a hit, from `count` digits on. -/
def search (value : BinaryFraction) : (fuel count : Nat) → Nat × Int
  | 0, count =>
    let place := value.magnitude - count
    let q := value.quotient
    let grid : Quotient := .scaled 1 10 place
    (q.numerator * grid.denominator / (q.denominator * grid.numerator), place)
  | fuel + 1, count =>
    let place := value.magnitude - count
    match value.onGrid? place with
    | some decimal => (decimal, place)
    | none => search value fuel (count + 1)

end BinaryFraction

/-- A decimal `0.d₁d₂… * 10 ^ point`. -/
structure Digits where
  digits : List Nat
  point : Int

/-- The shortest decimal that reads back as the value; seventeen digits always suffice. -/
def BinaryFraction.shortest (value : BinaryFraction) : Digits :=
  let (decimal, place) := value.search 17 1
  let digits := Numeral.digits 10 decimal
  let kept := (digits.reverse.dropWhile (· == 0)).reverse
  ⟨kept, digits.length + place⟩

/-- How digits are laid out: positionally when the point is above `lowest` and at most `highest`,
with an exponent otherwise. -/
structure DecimalStyle where
  lowest : Int
  highest : Int
  notANumber : String
  infinite : String

/-- Digits positionally, with at least one digit on each side of the point. -/
def Digits.positional (number : Digits) : String :=
  let spelled := number.digits.map Numeral.digitChar
  let whole := number.point.toNat
  let before := spelled.take whole ++ List.replicate (whole - spelled.length) '0'
  let after := List.replicate (-number.point).toNat '0' ++ spelled.drop whole
  String.ofList ((if before.isEmpty then ['0'] else before) ++ '.' ::
    (if after.isEmpty then ['0'] else after))

/-- Digits with an exponent of ten, after one digit before the point. -/
def Digits.exponential (number : Digits) : String :=
  match number.digits.map Numeral.digitChar with
  | [] => "0"
  | first :: rest =>
    let fraction := if rest.isEmpty then [] else '.' :: rest
    String.ofList (first :: fraction) ++ "e" ++ signedDecimal (number.point - 1)

def DecimalStyle.spell (style : DecimalStyle) (format : BinaryFormat) (bits : Nat) : String :=
  let signed (negative : Bool) (text : String) := if negative then "-" ++ text else text
  match format.decode bits with
  | .notANumber => style.notANumber
  | .infinite negative => signed negative style.infinite
  | .zero negative => signed negative "0.0"
  | .finite negative value =>
    let number := value.shortest
    signed negative
      (if style.lowest < number.point ∧ number.point ≤ style.highest then number.positional
       else number.exponential)

end CilCapture.Text
