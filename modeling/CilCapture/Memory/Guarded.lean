import CilCapture.Memory.Mapped

/-!
# Protected memory

Buffers of which some ranges refuse writes. A range may also be sealed by the first write to it.
Reads and allocations are not affected.
-/

namespace CilCapture.Memory

structure AddressRange where
  start : Address
  length : Nat
  deriving DecidableEq, Repr

/-- Whether a write of `length` bytes touches the range. -/
def AddressRange.touches (range : AddressRange) (address : Address) (length : Nat) : Bool :=
  range.start < address + length && address < range.start + range.length

/-- Whether it cannot be told if a write touches the range, as the end of the write or the end of a
range that starts before it lies outside of the address space. -/
def AddressRange.overruns (range : AddressRange) (address : Address) (length : Nat) : Bool :=
  Address.limit ≤ address + length ||
    (range.start < address + length && Address.limit ≤ range.start + range.length)

/-- Why a range that refuses writes refuses this one. -/
def AddressRange.refusal? (range : AddressRange) (address : Address) (length : Nat) :
    Option Fault :=
  if range.overruns address length then some .overrun
  else if range.touches address length then some (.memory address .readOnly)
  else none

structure GuardedMemory where
  buffers : MappedMemory
  /-- Ranges that refuse writes. -/
  readOnly : List AddressRange
  /-- Ranges that refuse writes after the first one. -/
  writeOnce : List AddressRange
  deriving DecidableEq, Repr

namespace GuardedMemory

def onBuffers {α : Type} (step : EStateM Fault MappedMemory α) : EStateM Fault GuardedMemory α :=
  fun memory =>
    match step memory.buffers with
    | .ok value buffers => .ok value { memory with buffers }
    | .error fault buffers => .error fault { memory with buffers }

/-- Stores bytes outside of the protected ranges. -/
def write (address : Address) (data : Bytes) : EStateM Fault GuardedMemory Unit := fun memory =>
  match memory.readOnly.findSome? (·.refusal? address data.length) with
  | some fault => .error fault memory
  | none =>
    match onBuffers (MappedMemory.write address data) memory with
    | .ok () memory =>
      if memory.writeOnce.any (·.overruns address data.length) then .error .overrun memory
      else
        .ok () { memory with
          readOnly := memory.readOnly ++ memory.writeOnce.filter (·.touches address data.length) }
    | .error fault memory => .error fault memory

def protect (ranges : List AddressRange) (memory : GuardedMemory) : GuardedMemory :=
  { memory with readOnly := memory.readOnly ++ ranges }

def unprotect (memory : GuardedMemory) : GuardedMemory := { memory with readOnly := [] }

instance : AddressSpace GuardedMemory where
  read address length memory := memory.buffers.read address length
  write := write
  allocateNear near size := onBuffers (MappedMemory.allocateNear near size)

end GuardedMemory

end CilCapture.Memory
