import CilCapture.Fault

/-!
# Address spaces

All access to the memory of the hosting process goes through `AddressSpace`, so that redirects,
patches and snapshots work alike on the live process and on a copy held in buffers. Numbers in
memory are stored least significant byte first.
-/

namespace CilCapture.Memory

/-- A state with an address space in it. -/
class AddressSpace (W : Type) where
  /-- The bytes from an address on. -/
  read (address : Address) (length : Nat) (world : W) : Except Fault Bytes
  /-- Stores bytes from an address on. -/
  write (address : Address) (data : Bytes) : EStateM Fault W Unit
  /-- New zeroed memory, close enough to an address for a relative call. -/
  allocateNear (near : Address) (size : Nat) : EStateM Fault W Address

variable {W : Type} [AddressSpace W]

/-- The bytes from an address on, as a step that changes nothing. -/
def load (address : Address) (length : Nat) : EStateM Fault W Bytes := fun world =>
  match AddressSpace.read address length world with
  | .ok bytes => .ok bytes world
  | .error fault => .error fault world

/-- One past the length of the longest buffer. -/
def bufferLimit : Nat := Address.limit / 2

/-- A step on a buffer of a length that a buffer can have. -/
def withBuffer {α : Type} (length : Nat) (step : EStateM Fault W α) : EStateM Fault W α :=
  if length < bufferLimit then step else throw .overrun

/-- A step on a pointer of a size that a word can hold. -/
def withPointer {α : Type} (size : Nat) (step : EStateM Fault W α) : EStateM Fault W α :=
  if size ≤ Address.width then step else throw .overrun

def loadByte (address : Address) : EStateM Fault W UInt8 := do
  return UInt8.ofNat (← load address 1).toNat

/-- The signed number of four bytes at an address. -/
def loadInt (address : Address) : EStateM Fault W Int := do
  return (UInt32.ofNat (← load address 4).toNat).toInt32.toInt

/-- The pointer of `size` bytes at an address. -/
def loadPointer (address : Address) (size : Nat) : EStateM Fault W Address :=
  withPointer size do return (← load address size).toNat

/-- Stores a signed number of four bytes. -/
def storeInt (address : Address) (value : Int) : EStateM Fault W Unit :=
  AddressSpace.write address (Bytes.ofInt 4 value)

/-- Stores the low `size` bytes of a pointer. -/
def storePointer (address : Address) (size : Nat) (value : Address) : EStateM Fault W Unit :=
  withPointer size (AddressSpace.write address (Bytes.ofNat size value))

/-- Distance from a relative call within which memory is allocated for it. -/
def nearRange : Nat := 0x7FF00000

def granule : Nat := 0x10000

/-- The addresses at `step` granules from `base`, above first, that exist and are not null. -/
def candidatesAt (base step : Nat) : List Address :=
  let distance := step * granule
  (if base + distance < Address.limit then [base + distance] else []) ++
    (if distance < base then [base - distance] else [])

/-- Where memory near an address may be allocated: nearest first, above and below in turn. -/
def nearCandidates (near : Address) : List Address :=
  (List.range' 1 (nearRange / granule - 1)).flatMap (candidatesAt (near / granule * granule))

end CilCapture.Memory
