import CilCapture.Compile.Process
import CilCapture.Rehearsal.Stage
import CilCapture.Service.Engine

/-!
# Requests about methods

What a handle resolves to, and what forcing a method through the compiler asks of the engine.
-/

namespace CilCapture.Service

open Document

def identity (request : Document) : Decoded Fields := do
  let identity : Engine.MethodIdentity :=
    { moduleHandle := ← natAt "module" request, methodHandle := ← natAt "method" request }
  return [("display", identity.text)]

/-- Reads a resolver: that of the generation, unless the name and whether answers are kept choose
another one. -/
def asResolver (request : Document) : Decoded Engine.Resolver := do
  let ofGeneration := Engine.Resolver.ofFlavor (← flavorAt request)
  match ← textAt "resolver" request, ← boolAt "caching" request with
  | "passthrough", false => return .passthrough
  | "inst", false => return .instantiating
  | "inst", true => return .caching .instantiating []
  | "unbox", false => return .unboxing
  | "boxed", true => return .caching ofGeneration []
  | _, _ => return ofGeneration

/-- The answers of a resolver, each with what it asked the engine. -/
def resolveAll : List Handle → Engine.Resolver → Rehearsal.World → List Document
  | [], _, _ => []
  | method :: rest, resolver, world =>
    let (answer, resolver, world) :=
      match resolver.resolve method { world with incidents := [] } with
      | .ok resolved (resolver, world) => (Except.ok resolved, resolver, world)
      | .error fault (resolver, world) => (Except.error fault, resolver, world)
    let queries := world.incidents.filterMap fun
      | .query question method => some (Document.list [question, .ofAddress method])
      | _ => none
    Document.record (resultFields .ofAddress answer ++ [("queries", .list queries)]) ::
      resolveAll rest resolver world

def identities (request : Document) : Decoded Fields := do
  let world := { emptyWorld with answers := ← asAnswers request }
  let methods ← listAt asNat "methods" request
  return [("steps", .list (resolveAll methods (← asResolver request) world))]

def requests (world : Rehearsal.World) : Document :=
  .list (world.incidents.filterMap fun
    | .request call argument => some (Document.list [call, argument])
    | _ => none)

def emptyProcess {C : Type} (client : C) (world : Rehearsal.World) :
    Compile.Process C Rehearsal.World := .idle client world

/-- Reads which calls fail, each named with the text of its argument. -/
def asFailing (argument : Document → Decoded String) (request : Document) :
    Decoded (List Rehearsal.FailingCall) :=
  listAt (pairOf asText argument) "fail" request

/-- Reads a handle as the text that names it in calls. -/
def asHandleText (request : Document) : Decoded String := do
  return Rehearsal.handleText (← asNat request)

def force (request : Document) : Decoded Fields := do
  let method ← natAt "method" request
  let unboxing ← listAt asNat "unboxing" request
  let wrapped ← numberedAt asNat "wrapped" request
  let methods := (unboxing ++ wrapped.map Prod.fst).map fun handle =>
    (handle, ({ compiles := [], unboxing := handle ∈ unboxing, wrapped := wrapped.lookup handle } :
      Rehearsal.MethodScript))
  let routines := Rehearsal.scriptedRoutines (← asFailing asHandleText request) methods
  let (answer, process) := outcome
    (Compile.Process.perform (routines.force method) (emptyProcess () emptyWorld))
  return resultFields .ofUnit answer ++ [("calls", requests process.world)]

/-- A step on the engine's own routines. -/
def nativeStep (routines : Compile.MethodRoutines Rehearsal.World) (name : String)
    (arguments : List Document) (process : Compile.Process Unit Rehearsal.World) :
    Decoded (Fields × Compile.Process Unit Rehearsal.World) := do
  let method ← asNat (itemAt 0 arguments)
  let run {α : Type} (encode : α → Document) (routine : Compile.Routine Rehearsal.World α) :=
    let (answer, process) := outcome (Compile.Process.perform routine process)
    (resultFields encode answer, process)
  match name with
  | "force" => return run .ofUnit (routines.force method)
  | "reset" => return run .ofUnit (routines.reset method)
  | "do_prestub" => return run .ofAddress (routines.doPrestub method)
  | "is_unboxing_stub" => return run Document.flag (routines.isUnboxingStub method)
  | "wrapped_method" => return run .ofAddress (routines.wrappedMethod method)
  | _ => throw (.malformed "unknown step")

/-- Answers steps on the engine's own routines, which a 64-bit process calls whatever the
architecture of the engine. -/
def nativeForce (request : Document) : Decoded Fields := do
  let memory ← asMemory request
  let wrapped ← numberedAt asNat "wrapped" request
  let missing ← textAt "missing" request
  match ← asEnvironment request with
  | .error fault => return faultFields fault
  | .ok environment =>
    let table := Rehearsal.routineTable environment.modules.engineVersion missing
    let world := { Rehearsal.World.ofMemory memory with wrapped }
    match Compile.NativeRoutines.bind .x64 Rehearsal.World.engineBase table world with
    | .error fault _ => return faultFields fault
    | .ok native world =>
      let (answers, process) ← runSteps (nativeStep native.routines) (← stepsAt request)
        (emptyProcess () world)
      return [("steps", .list answers), ("calls", requests process.world)]

end CilCapture.Service
