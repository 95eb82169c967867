import CilCapture.Image.Snapshot
import CilCapture.Memory.Live
import CilCapture.Service.Answer

/-!
# Requests about memory

Reading, writing and allocating, in buffers and in the memory of the process itself; and the layout
of an image that is mapped in a buffer, with the file that it came from.
-/

namespace CilCapture.Service

open Document

namespace Document

/-- Reads a buffer and its address: bytes, or a filled size with pieces laid over it. A piece does
not reach over the end. -/
def asMapping (request : Document) : Decoded (Address × Bytes) := do
  let base ← natAt "base" request
  match ← optional asBytes "hex" request with
  | some bytes => return (base, bytes)
  | none =>
    let size ← natAt "size" request
    let fill ← natAt "fill" request
    let data ← listAt (pairOf asNat asBytes) "data" request
    if Memory.bufferLimit ≤ size || data.any fun (start, piece) => size < start + piece.length then
      throw .breakdown
    return (base, data.foldl (fun bytes (start, piece) => bytes.overlay start piece)
      (List.replicate size (UInt8.ofNat fill)))

/-- Reads memory: buffers, and ranges that refuse writes. -/
def asMemory (request : Document) : Decoded Memory.GuardedMemory := do
  let regions ← listAt asMapping "regions" request
  let mapAll : EStateM Fault Memory.MappedMemory Unit :=
    regions.forM fun (base, bytes) => Memory.MappedMemory.map base bytes
  let (mapped, buffers) := outcome (mapAll .empty)
  setUp mapped
  return {
    buffers
    readOnly := ← listAt asRange "readonly" request
    writeOnce := ← listAt asRange "write_once" request }

end Document

def accessStep {W : Type} [Memory.AddressSpace W] (name : String) (address : Address)
    (arguments : List Document) (world : W) : Decoded (Except Fault Document × W) := do
  let run {α : Type} (write : α → Document) (step : EStateM Fault W α) :
      Except Fault Document × W :=
    let (answer, world) := outcome (step world)
    (answer.map write, world)
  let argument := itemAt 0 arguments
  match name with
  | "read" =>
    let length ← asNat argument
    return run .ofBytes (Memory.withBuffer length (Memory.load address length))
  | "write" => return run .ofUnit (Memory.AddressSpace.write address (← asBytes argument))
  | "read_u8" => return run (fun byte => .ofNat byte.toNat) (Memory.loadByte address)
  | "read_i32" => return run .ofInt (Memory.loadInt address)
  | "write_i32" => return run .ofUnit (Memory.storeInt address (← asInt argument))
  | "read_pointer" => return run .ofAddress (Memory.loadPointer address (← asNat argument))
  | "write_pointer" =>
    let value ← asNat (itemAt 1 arguments)
    return run .ofUnit (Memory.storePointer address (← asNat argument) value)
  | "allocate_near" =>
    let size ← asNat argument
    return run .ofAddress (Memory.withBuffer size (Memory.AddressSpace.allocateNear address size))
  | _ => throw (.malformed "unknown step")

def memoryStep (name : String) (arguments : List Document) (memory : Memory.GuardedMemory) :
    Decoded (Except Fault Document × Memory.GuardedMemory) := do
  let onBuffers (step : EStateM Fault Memory.MappedMemory Unit) :
      Except Fault Document × Memory.GuardedMemory :=
    let (answer, memory) := outcome (Memory.GuardedMemory.onBuffers step memory)
    (answer.map .ofUnit, memory)
  match name with
  | "unprotect" => return (.ok .null, memory.unprotect)
  | _ =>
    let address ← asNat (itemAt 0 arguments)
    let argument := itemAt 1 arguments
    match name with
    | "protect" =>
      return (.ok .null, memory.protect [{ start := address, length := ← asNat argument }])
    | "map" => return onBuffers (Memory.MappedMemory.map address (← asBytes argument))
    | "map_zeros" =>
      let size ← asNat argument
      return onBuffers (Memory.withBuffer size fun memory =>
        Memory.MappedMemory.map address (Bytes.zeros size) memory)
    | _ => accessStep name address (arguments.drop 1) memory

def memory (request : Document) : Decoded Fields := do
  let (answers, _) ← runSteps (fun name arguments memory => do
    let (answer, memory) ← memoryStep name arguments memory
    return (resultFields id answer, memory)) (← stepsAt request) (← asMemory request)
  return [("steps", .list answers)]

/-- Where the buffer of the live memory stands. -/
def liveBase : Address := 0x100000000000

/-- A step on the memory of the process; addresses count from its buffer. -/
def liveStep (name : String) (arguments : List Document) (memory : Memory.LiveMemory) :
    Decoded (Fields × Memory.LiveMemory) := do
  let address ←
    match itemAt 0 arguments with
    | .null => pure 0
    | offset => pure (liveBase + (← asNat offset))
  if name = "allocate_near" then
    let size ← asNat (itemAt 1 arguments)
    let (answer, memory) := outcome (Memory.AddressSpace.allocateNear address size memory)
    return (resultFields (fun (stub : Address) =>
      let distance := max stub address - min stub address
      let zeros := (Memory.AddressSpace.read stub size memory).toOption == some (Bytes.zeros size)
      .list [decide (distance < Memory.nearRange), zeros]) answer, memory)
  else
    let (answer, memory) ← accessStep name address (arguments.drop 1) memory
    return (resultFields id answer, memory)

/-- Answers steps on the memory of the process. -/
def processMemory (request : Document) : Decoded Fields := do
  let bytes := List.replicate (← natAt "size" request) (UInt8.ofNat (← natAt "fill" request))
  let memory : Memory.LiveMemory := ⟨⟨[{ base := liveBase, bytes }]⟩⟩
  let (answers, _) ← runSteps liveStep (← stepsAt request) memory
  return [("steps", .list answers)]

/-- Answers the layout of a mapped image and the file that it came from. -/
def snapshot (request : Document) : Decoded Fields := do
  let memory ← asMemory request
  let base ← natAt "base" request
  let layoutOnly ← boolAt "layout_only" request
  return fieldsOr (fun layout => [
    ("size_of_headers", .ofNat layout.sizeOfHeaders),
    ("file_size", .ofNat layout.fileSize),
    ("sections", listOf (fun entry => .list [.ofBytes entry.name, .ofNat entry.virtualSize.toNat,
      .ofNat entry.virtualAddress.toNat, .ofNat entry.rawSize.toNat, .ofNat entry.rawPointer.toNat])
      layout.sections),
    ("file", if layoutOnly then .null
      else .ofResult .ofBytes (Image.reconstruct .standard base memory))])
    (Image.ImageLayout.read .standard base memory)

end CilCapture.Service
