import CilCapture.Memory.Space

/-!
# Memory held in buffers

An address space made of buffers mapped at chosen addresses. An access must lie inside one region;
a region can only be mapped where it overlaps no other and ends before the end of the address space.
-/

namespace CilCapture.Memory

structure Mapping where
  base : Address
  bytes : Bytes
  deriving DecidableEq, Repr

/-- Buffers at addresses, in the order in which they were mapped. -/
structure MappedMemory where
  regions : List Mapping
  deriving DecidableEq, Repr

namespace Mapping

/-- Whether a range lies inside the region. -/
def covers (region : Mapping) (address : Address) (length : Nat) : Bool :=
  region.base ≤ address && address + length ≤ region.base + region.bytes.length

def overlaps (region : Mapping) (address : Address) (length : Nat) : Bool :=
  address < region.base + region.bytes.length && region.base < address + length

/-- The bytes of a range inside the region. -/
def slice (region : Mapping) (address : Address) (length : Nat) : Bytes :=
  (region.bytes.drop (address - region.base)).take length

/-- The region with bytes stored inside it. -/
def store (region : Mapping) (address : Address) (data : Bytes) : Mapping :=
  { region with bytes := region.bytes.overlay (address - region.base) data }

end Mapping

namespace MappedMemory

def empty : MappedMemory := ⟨[]⟩

def map (base : Address) (bytes : Bytes) : EStateM Fault MappedMemory Unit := fun memory =>
  if Address.limit ≤ base + bytes.length then .error .overrun memory
  else if memory.regions.any (·.overlaps base bytes.length) then
    .error (.memory base .overlapping) memory
  else .ok () ⟨memory.regions ++ [⟨base, bytes⟩]⟩

/-- The fault of an access to a range that lies in no region. Whether it lies in a region that
starts before it cannot be told of a range that runs over the end of the address space. -/
def missing (address : Address) (length : Nat) (memory : MappedMemory) : Fault :=
  if Address.limit ≤ address + length ∧ memory.regions.any (·.base ≤ address) then .overrun
  else .memory address (.unmapped length)

def read (address : Address) (length : Nat) (memory : MappedMemory) : Except Fault Bytes :=
  match memory.regions.find? (·.covers address length) with
  | some region => .ok (region.slice address length)
  | none => .error (memory.missing address length)

/-- The regions with bytes stored in the first one that has room for them at their address. -/
def storeFirst (address : Address) (data : Bytes) : List Mapping → Option (List Mapping)
  | [] => none
  | region :: rest =>
    if region.covers address data.length then some (region.store address data :: rest)
    else (storeFirst address data rest).map (region :: ·)

def write (address : Address) (data : Bytes) : EStateM Fault MappedMemory Unit := fun memory =>
  match storeFirst address data memory.regions with
  | some regions => .ok () ⟨regions⟩
  | none => .error (memory.missing address data.length) memory

/-- Maps zeros at the first candidate address where they overlap nothing. The search goes no further
than to a candidate that is too close to the end of the address space. -/
def allocateFirst (candidates : List Address) (near : Address) (size : Nat) :
    EStateM Fault MappedMemory Address := fun memory =>
  match candidates.find? fun base =>
      Address.limit ≤ base + size || !memory.regions.any (·.overlaps base size) with
  | some base =>
    if Address.limit ≤ base + size then .error .overrun memory
    else .ok base ⟨memory.regions ++ [⟨base, Bytes.zeros size⟩]⟩
  | none => .error (.memory near (.noRoomNear size)) memory

def allocateNear (near : Address) (size : Nat) : EStateM Fault MappedMemory Address :=
  allocateFirst (nearCandidates near) near size

instance : AddressSpace MappedMemory := ⟨read, write, allocateNear⟩

end MappedMemory

end CilCapture.Memory
