import CilCapture.Memory.Mapped

/-!
# Memory of the process itself

Direct access to the process refuses the null address, whatever the length of the access. What is
mapped elsewhere is what the process has mapped.
-/

namespace CilCapture.Memory

structure LiveMemory where
  mapped : MappedMemory
  deriving DecidableEq, Repr

namespace LiveMemory

def read (address : Address) (length : Nat) (memory : LiveMemory) : Except Fault Bytes :=
  if address = 0 then .error (.memory address .nullAddress) else memory.mapped.read address length

def write (address : Address) (data : Bytes) : EStateM Fault LiveMemory Unit := fun memory =>
  if address = 0 then .error (.memory address .nullAddress) memory
  else
    match MappedMemory.write address data memory.mapped with
    | .ok () mapped => .ok () ⟨mapped⟩
    | .error fault mapped => .error fault ⟨mapped⟩

/-- One past the greatest address of a process. -/
def userLimit : Address := 0x800000000000

/-- New zeroed memory near an address. The process has no empty mappings, and none that is larger
than all its addresses. -/
def allocateNear (near : Address) (size : Nat) : EStateM Fault LiveMemory Address := fun memory =>
  if size = 0 ∨ userLimit ≤ size then .error (.memory near (.noRoomNear size)) memory
  else
    match MappedMemory.allocateNear near size memory.mapped with
    | .ok address mapped => .ok address ⟨mapped⟩
    | .error fault mapped => .error fault ⟨mapped⟩

instance : AddressSpace LiveMemory := ⟨read, write, allocateNear⟩

end LiveMemory

end CilCapture.Memory
