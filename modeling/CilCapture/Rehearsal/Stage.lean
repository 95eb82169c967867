import CilCapture.Hook.Redirect
import CilCapture.Rehearsal.World

/-!
# The compiler of a rehearsal

The image of a compiler with the two sites that can be redirected: a relative call, and the pointer
to an interface table whose first entry leads to the compiler. The image stands near the library's
entry points or out of reach of relative calls to them. `Reached` tells where a site leads.

The process's code stands where a loader would put it: far above `ownBase`, so that no relative call
near it leaves the process's own memory, and at addresses of no round
bytes, so that a site of which some bytes were overwritten leads elsewhere.
-/

namespace CilCapture.Rehearsal

open Engine Hook Memory

/-- Where the process's own code and objects start. -/
def ownBase : Address := 0x10000000000

def entryPoints : EntryPoints := ⟨0x55816F2C53D0, 0x55816F2C57B0⟩

/-- The compiler's own routines, where nothing is redirected. -/
def compilerRoutines : EntryPoints := ⟨0x55816F2EB970, 0x55816F2EBA50⟩

inductive Placement where
  /-- Within reach of the entry points. -/
  | near
  /-- Out of reach of them. -/
  | far
  deriving DecidableEq, Repr

def Placement.base : Placement → Address
  | near => 0x55817F3A0000
  | far => 0x20000000

def imageSize : Nat := 0x3000

def callOffset : Nat := 0x100

/-- Where the image holds the compiler object. -/
def instanceOffset : Nat := 0x2000

/-- Where the image holds the interface table. -/
def tableOffset : Nat := 0x2100

/-- The displacement of the call: to the compiler's routine, or a short way ahead. -/
def Placement.callDisplacement : Placement → Int
  | .near => (compilerRoutines.compCompile : Int) - (Placement.base .near + callOffset + 5)
  | .far => 16

/-- The bytes of the image and where they go in it. -/
def Placement.pieces (placement : Placement) : List (Nat × Bytes) := [
  (callOffset, callOpcode :: Bytes.ofInt 4 placement.callDisplacement),
  (instanceOffset, Bytes.ofNat 8 (placement.base + tableOffset)),
  (tableOffset, Bytes.ofNat 8 compilerRoutines.compileMethod)]

def Placement.image (placement : Placement) : Bytes :=
  placement.pieces.foldl (fun image (start, bytes) => image.overlay start bytes)
    (List.replicate imageSize 0xCC)

/-- Maps the image, with some of its bytes replaced, and protects ranges that count from it. -/
def Placement.mapImage (placement : Placement) (replaced : List (Nat × Bytes))
    (readOnly : List AddressRange) : EStateM Fault GuardedMemory Unit := do
  if replaced.any fun (start, bytes) => imageSize < start + bytes.length then throw .overrun
  let image := replaced.foldl (fun image (start, bytes) => image.overlay start bytes)
    placement.image
  GuardedMemory.onBuffers (MappedMemory.map placement.base image)
  let ranges ← readOnly.mapM fun range => do
    let start ← settle (placement.base.advance range.start)
    return { range with start }
  modify (·.protect ranges)

inductive Reached where
  /-- To the compiler. -/
  | compiler
  /-- To the library's entry point. -/
  | entry
  | elsewhere (address : Address)
  deriving DecidableEq, Repr

def reachedAt (address : Address) : Reached :=
  if compilerRoutines.has address then .compiler
  else if entryPoints.has address then .entry
  else .elsewhere address

inductive CallSite where
  /-- Straight to an address. -/
  | direct (target : Reached)
  /-- By a displacement out of the image, through a jump if one stands there: its first bytes and
  where it goes on. -/
  | through (displacement : Int) (stub : Option (Bytes × Reached))
  deriving DecidableEq, Repr

/-- The jump at an address, if one stands there. -/
def stubAt (address : Address) (memory : GuardedMemory) :
    Except Fault (Option (Bytes × Reached)) :=
  match AddressSpace.read address absoluteJumpSize memory with
  | .error .overrun => .error .overrun
  | .error _ => .ok none
  | .ok bytes =>
    .ok (if bytes.take 2 = [0xFF, 0x25] then
      some (bytes.take 6, reachedAt (Bytes.toNat (bytes.drop 6)))
    else none)

/-- Where the call of the image leads. -/
def Placement.callSite (placement : Placement) (memory : GuardedMemory) :
    Except Fault CallSite := do
  let operand := placement.base + callOffset + 1
  let bytes ← AddressSpace.read operand 4 memory
  let displacement := (UInt32.ofNat bytes.toNat).toInt32.toInt
  let target := callTarget operand displacement
  match placement with
  | .near => return .direct (reachedAt target)
  | .far => return .through displacement (← stubAt target memory)

/-- Where the first entry of the image's interface table leads. -/
def Placement.tableSite (placement : Placement) (memory : GuardedMemory) :
    Except Fault Reached := do
  let bytes ← AddressSpace.read (placement.base + tableOffset) 8 memory
  return reachedAt bytes.toNat

/-- An offset table that knows only where the compiler's call is. -/
def callTable (version : Version) (offset : UInt32) : OffsetTable where
  engineVersion := version
  compilerVersion := version
  offset
    | .callCompCompile => offset
    | _ => 0

/-- An offset table that knows only where the engine's routines are, one of them possibly not. -/
def routineTable (version : Version) (missing : String) : OffsetTable where
  engineVersion := version
  compilerVersion := version
  offset site :=
    if site.key = missing then 0
    else
      match site with
      | .reset => UInt32.ofNat World.resetOffset
      | .doPrestub => UInt32.ofNat World.prestubOffset
      | .getWrapped => UInt32.ofNat World.unwrapOffset
      | _ => 0

end CilCapture.Rehearsal
