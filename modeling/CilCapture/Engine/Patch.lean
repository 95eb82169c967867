import CilCapture.Engine.Offsets
import CilCapture.Memory.Space

/-!
# Patches of the engine

Forcing methods through the compiler out of their natural order trips guards of the engine. A
`PatchSet` disarms each of them by overwriting a few bytes, and puts the saved bytes back
afterwards. The bytes to save are read, and checked against the expected code, when the set is
made; nothing is written until it is applied.
-/

namespace CilCapture.Engine

open Memory

/-- A site, the bytes it holds and the bytes that replace them. -/
structure Patch where
  intent : PatchIntent
  address : Address
  saved : Bytes
  replacement : Bytes
  deriving DecidableEq, Repr

namespace Patch

/-- A patch whose two byte strings are equally long. -/
def make (intent : PatchIntent) (address : Address) (saved replacement : Bytes) :
    Except Fault Patch :=
  if saved.length ≠ replacement.length then
    .error (.malformed (.patchLengths intent address saved.length replacement.length))
  else .ok { intent, address, saved, replacement }

/-- A patch of a site in memory whose code starts as expected. -/
def capture {W : Type} [AddressSpace W] (intent : PatchIntent) (address : Address)
    (replacement expected : Bytes) (world : W) : Except Fault Patch := do
  let saved ← AddressSpace.read address replacement.length world
  if expected.isPrefixOf saved then make intent address saved replacement
  else throw (.patchMismatch address expected (saved.take expected.length))

end Patch

/-- Answers "never inline"; arguments other than `this` start at the given distance on the stack.
The code clears the caller's restrictions, returns minus two and drops the arguments. -/
def neverInline (firstArgument : UInt8) : Bytes :=
  [0x8B, 0x44, 0x24, firstArgument, 0x85, 0xC0, 0x74, 0x03, 0x83, 0x20, 0x00, 0x6A, 0xFE, 0x58,
    0xC2, firstArgument, 0x00]

/-- Sets `eax` to zero in place of a test and a jump. -/
def clearResult : Bytes := [0xB8, 0x00, 0x00, 0x00, 0x00, 0x90, 0x90, 0x90]

/-- The start of a test of `eax` and a jump. -/
def testResult : Bytes := [0x85, 0xC0, 0x0F, 0x85]

/-- The start of a call with an argument from the stack frame. -/
def loadArgumentCall : Bytes := [0x8B, 0x4D, 0xE8, 0xE8]

/-- Nothing, in as many bytes as a load and a call. -/
def eightNops : Bytes := List.replicate 8 0x90

/-- The patches of one engine, applied and undone as a unit. -/
structure PatchSet where
  architecture : Architecture
  patches : List Patch
  applied : Bool
  deriving DecidableEq, Repr

namespace PatchSet

/-- A set of given patches, not applied. -/
def ofPatches (architecture : Architecture) (patches : List Patch) : PatchSet :=
  { architecture, patches, applied := false }

/-- The patch of one site of the engine. -/
def sitePatch {W : Type} [AddressSpace W] (environment : Environment) (table : OffsetTable)
    (intent : PatchIntent) (site : Site) (replacement expected : Bytes) (world : W) :
    Except Fault Patch := do
  let offset ← requireOffset (table.offset site) site.key
  let address ← environment.modules.engineBase.advance offset.toNat
  Patch.capture intent address replacement expected world

/-- The set for an engine; there is none outside of 32-bit processes. -/
def ofEngine {W : Type} [AddressSpace W] (environment : Environment) (table : OffsetTable)
    (world : W) : Except Fault PatchSet := do
  if environment.architecture ≠ .x86 then
    throw (.unsupportedArchitecture environment.architecture)
  let patch := fun intent site replacement expected =>
    sitePatch environment table intent site replacement expected world
  if environment.flavor = .v45 then
    let inlining ← patch .noInline .canInline (neverInline 0x0C) []
    let initializers ←
      patch .suppressStaticInit .classConstructorTriggered clearResult testResult
    let generics ← patch .allowGenericShells .containsGenericVariables clearResult testResult
    return ofPatches environment.architecture [inlining, initializers, generics]
  else
    let inlining ← patch .noInline .canInline (neverInline 0x10) []
    let initializers ← patch .suppressStaticInit .checkRunClassInit eightNops loadArgumentCall
    return ofPatches environment.architecture [inlining, initializers]

section

variable {W : Type} [AddressSpace W]

/-- Writes saved bytes back, the failures ignored. -/
def rollBack : List Patch → W → W
  | [], world => world
  | patch :: rest, world =>
    match AddressSpace.write patch.address patch.saved world with
    | .ok () world | .error _ world => rollBack rest world

/-- Writes the replacements of `patches` in order; `written` are the patches before them, the
latest first. A failing write takes all of those back. -/
def writeReplacements : (written patches : List Patch) → EStateM Fault W Unit
  | _, [], world => .ok () world
  | written, patch :: rest, world =>
    match AddressSpace.write patch.address patch.replacement world with
    | .ok () world => writeReplacements (patch :: written) rest world
    | .error fault world => .error fault (rollBack written world)

/-- Writes saved bytes in order; of the failures the first one is told. -/
def writeSaved : (first : Option Fault) → List Patch → W → Option Fault × W
  | first, [], world => (first, world)
  | first, patch :: rest, world =>
    match AddressSpace.write patch.address patch.saved world with
    | .ok () world => writeSaved first rest world
    | .error fault world => writeSaved (first.or (some fault)) rest world

/-- Writes every replacement, all or none. An applied set is left as it is. -/
def apply (set : PatchSet) (world : W) : Except Fault Unit × PatchSet × W :=
  if set.architecture ≠ .x86 then (.error (.unsupportedArchitecture set.architecture), set, world)
  else if set.applied then (.ok (), set, world)
  else
    match writeReplacements [] set.patches world with
    | .ok () world => (.ok (), { set with applied := true }, world)
    | .error fault world => (.error fault, set, world)

/-- Writes all saved bytes back, the last patch first, whatever fails; the set then counts as not
applied. A set that is not applied is left as it is. -/
def restore (set : PatchSet) (world : W) : Except Fault Unit × PatchSet × W :=
  if set.architecture ≠ .x86 then (.error (.unsupportedArchitecture set.architecture), set, world)
  else if !set.applied then (.ok (), set, world)
  else
    let (first, world) := writeSaved none set.patches.reverse world
    (match first with
      | none => .ok ()
      | some fault => .error fault,
      { set with applied := false }, world)

/-- Gives the set up: an applied set is undone, a failure only noticed. -/
def drop (set : PatchSet) (world : W) : W × List Notice :=
  if set.applied then
    match set.restore world with
    | (.ok (), _, world) => (world, [])
    | (.error fault, _, world) => (world, [.patchesLeft fault])
  else (world, [])

end

end PatchSet

end CilCapture.Engine
