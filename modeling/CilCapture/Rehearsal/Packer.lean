import CilCapture.Rehearsal.Script
import CilCapture.Sweep.Strategy

/-!
# Collaborators given as data

The host, the loader, the engine's routines and the strategy of a rehearsed sweep. Each notes what
it is asked and then fails if that is among the calls that fail.
-/

namespace CilCapture.Rehearsal

open Capture Compile Memory Sweep

/-- A call that fails: its name and its argument as text. -/
abbrev FailingCall := String × String

/-- Notes a request and fails if it is one that does. -/
def ask (failing : List FailingCall) (call argument : String) : EStateM Fault World Unit :=
  fun world =>
    let world := world.note (.request call argument)
    if (call, argument) ∈ failing then
      .error (.other (call ++ " of " ++ argument ++ " failed")) world
    else .ok () world

def handleText (handle : Handle) : String := "0x" ++ hex 0 handle

/-! ## The engine's routines -/

/-- What a method does when it is forced. -/
structure MethodScript where
  /-- The calls to the compiler that its prestub makes. -/
  compiles : List ScriptedCall
  unboxing : Bool
  wrapped : Option Handle
  deriving DecidableEq, Repr

def MethodScript.silent : MethodScript := ⟨[], false, none⟩

/-- Makes calls to the compiler and notes what they return. -/
def compileAll : List ScriptedCall → Routine World Unit
  | [] => pure ()
  | scripted :: rest =>
    .observe fun world =>
      let (call, world) := scripted.ready world
      .store world (.compile call fun result =>
        .observe fun world => .store (world.note (.compiled result)) (compileAll rest))

def scriptedRoutines (failing : List FailingCall) (methods : List (Handle × MethodScript)) :
    MethodRoutines World :=
  let method (handle : Handle) := (methods.lookup handle).getD .silent
  let asking (call : String) (handle : Handle) : Routine World Unit :=
    .ofStep (ask failing call (handleText handle))
  { reset := asking "reset"
    doPrestub := fun handle => do
      asking "do_prestub" handle
      compileAll (method handle).compiles
      return handle
    isUnboxingStub := fun handle => do
      asking "is_unboxing_stub" handle
      return (method handle).unboxing
    wrappedMethod := fun handle => do
      asking "wrapped_method" handle
      return (method handle).wrapped.getD handle }

/-! ## Host and loader -/

structure HostScript where
  moduleHandle : Handle
  imageBase : Address
  handles : List (Nat × Handle)
  /-- What running a static constructor writes. -/
  writes : List (Address × Bytes)
  /-- What running a static constructor makes read-only. -/
  protects : List AddressRange
  deriving DecidableEq, Repr

/-- Stores pieces of memory; the first failure ends it. -/
def writeAll : List (Address × Bytes) → EStateM Fault World Unit
  | [] => pure ()
  | (address, bytes) :: rest => do
    AddressSpace.write address bytes
    writeAll rest

def HostScript.host (script : HostScript) (failing : List FailingCall) : Host World where
  moduleHandle := script.moduleHandle
  imageBase := script.imageBase
  methodHandle token := .ofStep do
    ask failing "method_handle" token.text
    return script.handles.lookup token.row.toNat
  invoke token := .ofStep do
    ask failing "invoke" token.text
    writeAll script.writes
    modify fun world => { world with memory := world.memory.protect script.protects }

def hexText (bytes : Bytes) : String := String.join (bytes.map fun byte => hex 2 byte.toNat)

/-- A loader that opens one module from a path and another from memory. -/
def scriptedLoader (failing : List String) (packed output : TableModule) :
    Loader TableModule World :=
  let opening (call argument : String) (module_ : TableModule) :
      EStateM Fault World TableModule := fun world =>
    let world := world.note (.request call argument)
    if call ∈ failing then .error (TableModule.refuse call) world else .ok module_ world
  { load := fun path => opening "load" path packed
    loadBytes := fun image => opening "load_bytes" (hexText image) output }

/-! ## Strategies -/

/-- A strategy and the modules that it is for. -/
structure PackerScript where
  name : String
  /-- The number of methods of the modules that it is for. -/
  methods : Option Nat
  /-- Whether it only names itself and chooses methods, and is silent about it. -/
  plain : Bool
  /-- The steps that fail. -/
  failing : List String
  /-- Whether the output module is dropped once it is loaded. -/
  clearsOutput : Bool
  /-- Whether just the methods with a body are captured. -/
  needsBody : Bool
  /-- The methods that are captured, if not all. -/
  rows : Option (List Nat)
  /-- The types that are removed. -/
  removed : List String
  tokens : Option TokenMap
  deriving DecidableEq, Repr

namespace PackerScript

/-- Notes a step, named with whether there is an output module if `showOutput`, and fails if the
text is one that does. -/
def step (script : PackerScript) (text : String) (showOutput : Bool) :
    EStateM Fault (Workspace TableModule World) Unit := fun workspace =>
  let text := if showOutput then text ++ " " ++ toString workspace.output.isSome else text
  let workspace := { workspace with world := workspace.world.note (.step text) }
  if text ∈ script.failing then .error (TableModule.refuse text) workspace else .ok () workspace

def chooses (script : PackerScript) (row : Nat) : Bool :=
  match script.rows with
  | none => true
  | some rows => row ∈ rows

def removeTypes (script : PackerScript) :
    List String → TableModule → EStateM Fault (Workspace TableModule World) TableModule
  | [], module_ => pure module_
  | name :: rest, module_ =>
    match TableModule.removeType name module_ with
    | .error fault _ => throw fault
    | .ok found module_ => do
      script.step ("removed " ++ name ++ " " ++ toString found) false
      removeTypes script rest module_

def strategy (script : PackerScript) : Strategy TableModule World :=
  if script.plain then
    { name := script.name
      needsCapture := fun _ row => pure (script.chooses row) }
  else
    { name := script.name
      preInitialize := fun _ => .ofStep (script.step "pre_initialize" true)
      postInitialize := fun _ => .ofStep do
        script.step "post_initialize" true
        if script.clearsOutput then modify fun workspace => { workspace with output := none }
      needsCapture := fun context row => .ofStep do
        script.step ("needs_capture " ++ decimal row) false
        if script.needsBody then settle (ModuleStore.hasBody row context.packed)
        else return script.chooses row
      removeRuntimeSupport := fun _ output => .ofStep (script.removeTypes script.removed output)
      resolver := (script.tokens.map TokenMap.resolver).getD .identity }

def detector (script : PackerScript) : Detector TableModule World := fun module_ =>
  if script.methods.all (· == module_.bodies.length) then some script.strategy else none

end PackerScript

end CilCapture.Rehearsal
