import CilCapture.Compile.Routine
import CilCapture.Engine.Adapter
import CilCapture.Engine.Offsets

/-!
# Forcing a method through the compiler

A method that is reset to "never compiled" is compiled by its prestub, which is the path of its
first call. An unboxing stub only forwards, so the method it wraps is forced as well. `force`
leaves every method it touched reset, so that a later call compiles it again.
-/

namespace CilCapture.Compile

open Engine Memory

/-- The engine's routines on its method descriptors. -/
structure MethodRoutines (W : Type) where
  /-- Drops the compiled code. -/
  reset : Handle → Routine W Unit
  /-- Compiles the method; the result is its native entry. -/
  doPrestub : Handle → Routine W Address
  /-- Whether the method only forwards to the one it wraps. -/
  isUnboxingStub : Handle → Routine W Bool
  /-- The method that an unboxing stub wraps. -/
  wrappedMethod : Handle → Routine W Handle

def MethodRoutines.force {W : Type} (routines : MethodRoutines W) (method : Handle) :
    Routine W Unit := do
  routines.reset method
  let _ ← routines.doPrestub method
  if ← routines.isUnboxingStub method then
    let wrapped ← routines.wrappedMethod method
    routines.reset wrapped
    let _ ← routines.doPrestub wrapped
    routines.reset wrapped
  routines.reset method

/-- Addresses at which the engine's routines can be called. -/
structure NativeRoutines where
  reset : Address
  doPrestub : Address
  getWrapped : Address
  deriving DecidableEq, Repr

namespace NativeRoutines

variable {W : Type}

/-- The address of one routine of the engine at `engineBase`, for a caller of the given
architecture. -/
def bindSite [CodeSpace W] (caller : Architecture) (engineBase : Address) (table : OffsetTable)
    (site : Site) : EStateM Fault W Address := do
  let offset ← settle (requireOffset (table.offset site) site.key)
  let address ← settle (engineBase.advance offset.toNat)
  callable caller Address.width address .thisCall

/-- Finds the routines of an engine, for a caller of the given architecture. -/
def bind [CodeSpace W] (caller : Architecture) (engineBase : Address) (table : OffsetTable) :
    EStateM Fault W NativeRoutines := do
  let reset ← bindSite caller engineBase table .reset
  let doPrestub ← bindSite caller engineBase table .doPrestub
  let getWrapped ← bindSite caller engineBase table .getWrapped
  return { reset, doPrestub, getWrapped }

/-- Where a descriptor holds its second byte of flags. -/
def flagsOffset : Nat := 3

def unboxingFlag : UInt8 := 0x04

/-- The routines by calls to native code; what kind a method is stands in its descriptor. -/
def routines [AddressSpace W] [NativeCode W] (native : NativeRoutines) : MethodRoutines W where
  reset method := do
    let _ ← NativeCode.call native.reset [method]
  doPrestub method := NativeCode.call native.doPrestub [method, 0]
  isUnboxingStub method := do
    let flags ← Errand.ofStep (do loadByte (← settle (Address.advance method flagsOffset)))
    return flags &&& unboxingFlag != 0
  wrappedMethod method := NativeCode.call native.getWrapped [method]

end NativeRoutines

end CilCapture.Compile
