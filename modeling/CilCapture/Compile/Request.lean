import CilCapture.Engine.Environment

/-!
# Compile requests

What the engine hands to its compiler for one method. A `MethodInfo` is the native block; a
`CompileRequest` is what the block says under the layout of the running engine; a `CompileCall` is
the whole call and a `CompileEvent` the part of it that a callback may look at and edit.
-/

namespace CilCapture.Compile

open Engine

/-- A native block that describes a method. -/
structure MethodInfo where
  methodHandle : Handle
  moduleHandle : Handle
  /-- The memory that the code pointer refers to; nothing for a null pointer. -/
  code : Option Bytes
  codeSize : UInt32
  maxStack : UInt32
  clauseCount : UInt32
  options : UInt32
  localsCount : UInt16
  /-- The memory that the locals pointer refers to; nothing for a null pointer. -/
  locals : Option Bytes
  deriving DecidableEq, Repr, Inhabited

structure CompileRequest where
  methodHandle : Handle
  moduleHandle : Handle
  code : Bytes
  maxStack : UInt32
  clauseCount : UInt32
  /-- The options that have a meaning. -/
  options : UInt32
  localsCount : UInt16
  locals : Option Bytes
  deriving DecidableEq, Repr

def knownOptions : UInt32 := 0x1F0

/-- The option that locals start as zeros. -/
def initLocalsOption : UInt32 := 0x10

/-- A word as the layout stores it. -/
def storedWord (layout : InfoLayout) (word : UInt32) : UInt32 :=
  match layout with
  | .v20 => word &&& 0xFFFF
  | .v40 => word

namespace CompileRequest

/-- What a block says under a layout. -/
def ofInfo (layout : InfoLayout) (info : MethodInfo) : CompileRequest where
  methodHandle := info.methodHandle
  moduleHandle := info.moduleHandle
  code := (info.code.getD []).take info.codeSize.toNat
  maxStack := storedWord layout info.maxStack
  clauseCount := storedWord layout info.clauseCount
  options := info.options &&& knownOptions
  localsCount := info.localsCount
  locals := info.locals

def initLocals (request : CompileRequest) : Bool := request.options &&& initLocalsOption ≠ 0

end CompileRequest

/-- A call to the compiler as a callback sees it. -/
structure CompileEvent where
  layout : InfoLayout
  /-- The compiler's interface to the engine. -/
  jitInfo : Address
  /-- The block; nothing for a null pointer. -/
  info : Option MethodInfo
  /-- Where the address of the compiled code goes. -/
  nativeEntry : Address
  /-- Where the size of the compiled code goes. -/
  nativeSize : Address
  deriving DecidableEq, Repr, Inhabited

/-- What the event asks for; nothing if there is no block. -/
def CompileEvent.request? (event : CompileEvent) : Option CompileRequest :=
  event.info.map (CompileRequest.ofInfo event.layout)

abbrev ThreadId := Nat

/-- The routine of the compiler that is called. -/
inductive CompilerRoutine where
  /-- The first entry of the compiler's interface. -/
  | compileMethod
  /-- The internal compile routine, which also receives two handles. -/
  | compCompile (methodHandle moduleHandle : Handle)
  deriving DecidableEq, Repr, Inhabited

structure CompileCall where
  routine : CompilerRoutine
  thread : ThreadId
  this : Address
  jitInfo : Address
  info : Option MethodInfo
  flags : Nat
  nativeEntry : Address
  nativeSize : Address
  deriving DecidableEq, Repr, Inhabited

namespace CompileCall

/-- The call as a callback sees it. -/
def event (call : CompileCall) (layout : InfoLayout) : CompileEvent :=
  { layout, jitInfo := call.jitInfo, info := call.info, nativeEntry := call.nativeEntry,
    nativeSize := call.nativeSize }

/-- The call with the arguments of an event. -/
def withEvent (call : CompileCall) (event : CompileEvent) : CompileCall :=
  { call with
    jitInfo := event.jitInfo
    info := event.info
    nativeEntry := event.nativeEntry
    nativeSize := event.nativeSize }

end CompileCall

end CilCapture.Compile
