/-!
# Addresses

Addresses and handles of the hosting process are naturals below `Address.limit`; zero is the null
address. Arithmetic that may leave this range says what it does then: `Address.wrap` starts again at
zero, while a sum or a difference that is compared with `Address.limit`, or tested by
`Address.holdsSigned`, has no result outside of it.
-/

namespace CilCapture

abbrev Address := Nat

/-- A handle of the hosting engine: a module or a method, compared by its raw value. -/
abbrev Handle := Nat

def Address.limit : Nat := 0x10000000000000000

/-- One past the greatest address of a 32-bit process. -/
def Address.limit32 : Nat := 0x100000000

def Address.width : Nat := 8

/-- The address that a number stands for modulo the size of the address space. -/
def Address.wrap (value : Int) : Address := (value % (Address.limit : Int)).toNat

def Address.signed (address : Address) : Int :=
  if address < Address.limit / 2 then address else (address : Int) - Address.limit

/-- Whether a signed word holds a number. -/
def Address.holdsSigned (value : Int) : Bool :=
  -((Address.limit / 2 : Nat) : Int) ≤ value && value < ((Address.limit / 2 : Nat) : Int)

end CilCapture
