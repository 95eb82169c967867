import CilCapture.Capture.ClauseReader
import CilCapture.Hook.Redirect
import CilCapture.Rehearsal.Stage
import CilCapture.Service.Code
import CilCapture.Service.Methods

/-!
# Requests about calls to the compiler

Native blocks that describe methods, the clauses that an interface tells, and a filter with the
slots that lead to it.
-/

namespace CilCapture.Service

open Document

def ownThread : Compile.ThreadId := 0

/-- Bytes that follow the locals of a block. -/
def zeroTail : Bytes := Bytes.zeros Signature.RawSource.defaultLimit

/-- Reads a native block that describes a method. -/
def asInfo (request : Document) : Decoded (Option Compile.MethodInfo) := do
  if ← boolAt "null_info" request then return none
  let code ← optional asBytes "il" request
  let clauses ← listAt asClause "clauses" request
  let locals ← bytesAt "locals" request
  let pad ← natAt "pad" request
  let tail := if pad = 0 then zeroTail else List.replicate zeroTail.length (UInt8.ofNat pad)
  return some {
    methodHandle := ← natAt "method" request
    moduleHandle := ← natAt "module" request
    code
    codeSize := ← orElse (UInt32.ofNat (code.getD []).length) asWord "il_size" request
    maxStack := ← orElse 8 asWord "max_stack" request
    clauseCount := ← orElse (UInt32.ofNat clauses.length) asWord "eh_count" request
    options := ← orElse 0 asWord "options" request
    localsCount := UInt16.ofNat (← natAt "locals_count" request)
    locals := if ← boolAt "locals_null" request then none else some (locals ++ tail) }

/-- A call of a request; `kind` decides its routine where the request does not. -/
def asCall (kind : Hook.HookKind) (request : Document) : Decoded Rehearsal.ScriptedCall := do
  let method ← natAt "method" request
  let module_ ← natAt "module" request
  let flags ← natAt "flags" request
  let viaMethod ←
    match ← optional asText "via" request with
    | some via => pure (via == "method")
    | none => pure (kind == .table)
  let clauses ← listAt asClause "clauses" request
  let interface : Option Rehearsal.Interface ←
    if clauses.isEmpty then pure none
    else pure (some { displacement := ← orElse 3 asInt "displacement" request, clauses })
  let call : Compile.CompileCall := {
    routine := if viaMethod then .compileMethod else .compCompile method module_
    thread := if ← boolAt "thread" request then ownThread + 1 else ownThread
    this := ← orElse 1 asNat "this" request
    jitInfo := ← natAt "jit_info" request
    info := ← asInfo request
    flags := if viaMethod then (UInt32.ofNat flags).toNat else flags
    nativeEntry := ← natAt "native_entry" request
    nativeSize := ← natAt "native_size" request }
  return { call, interface }

/-- Addresses of the process's own objects have no fixed value. -/
def objectOr (address : Address) : Document :=
  if Rehearsal.ownBase ≤ address then "object" else .ofAddress address

def eventFields (event : Compile.CompileEvent) : Fields := [
  ("jit_info", objectOr event.jitInfo),
  ("method", orNull (fun info => .ofAddress (Compile.MethodInfo.methodHandle info)) event.info),
  ("null_info", event.info.isNone),
  ("native_entry", objectOr event.nativeEntry),
  ("native_size", objectOr event.nativeSize)]

/-- A decision of the filter; a callback that breaks down takes the filter along. -/
def Document.ofOutcome : Compile.FilterOutcome → Document
  | .claimed => "claimed"
  | .failed => "failed"
  | .broken => .broken
  | .forward event => Document.record [("forward", Document.record (eventFields event))]

def Document.ofCall (call : Compile.CompileCall) : Document :=
  let common : Fields := [
    ("this", objectOr call.this),
    ("jit_info", objectOr call.jitInfo),
    ("method", orNull (fun info => .ofAddress (Compile.MethodInfo.methodHandle info)) call.info),
    ("flags", .ofNat call.flags),
    ("native_entry", objectOr call.nativeEntry),
    ("native_size", objectOr call.nativeSize)]
  match call.routine with
  | .compileMethod => Document.record (("entry", "method") :: common)
  | .compCompile method module_ =>
    Document.record
      (("entry", "comp") :: ("args", .list [.ofAddress method, .ofAddress module_]) :: common)

def compilerCalls (incidents : List Rehearsal.Incident) : Document :=
  .list (incidents.filterMap fun
    | .compilerCall call => some (.ofCall call)
    | _ => none)

def clauseCalls (incidents : List Rehearsal.Incident) : Document :=
  .list (incidents.filterMap fun
    | .clause table slot this method index =>
      some (Document.list [table.name, .ofNat slot, .ofInt this, .ofAddress method, .ofNat index])
    | _ => none)

def callbackNotes (showDepth : Bool) (incidents : List Rehearsal.Incident) : Document :=
  .list (incidents.filterMap fun
    | .callback event depth =>
      some (Document.record [("callback", Document.record (eventFields event)),
        ("depth", if showDepth then .ofNat depth else .null)])
    | .nestedCall returned => some (Document.record [("nested", .ofInt returned.toInt)])
    | .nestedSift decided => some (Document.record [("nested", .ofOutcome decided)])
    | _ => none)

/-- Reads a call that a callback makes. -/
def asNested (kind : Hook.HookKind) (request : Document) : Decoded Rehearsal.NestedCall := do
  return {
    call := ← asCall kind request
    direct := ← boolAt "direct" request
    times := ← orElse 1 asNat "times" request }

def asEdits (request : Document) : Decoded Rehearsal.EventEdits := do
  return {
    jitInfo := ← optional asNat "jit_info" request
    nativeEntry := ← optional asNat "native_entry" request
    nativeSize := ← optional asNat "native_size" request
    info := ← optional asInfo "info" request }

def asEnding (request : Document) : Decoded Rehearsal.Ending := do
  match ← textAt "result" request with
  | "claim" => return .claim
  | "forward" => return .forward
  | "panic" => return .breakdown
  | _ => return .fail (← orElse "callback failed" asText "message" request)

def asCallback (kind : Hook.HookKind) (request : Document) : Decoded Rehearsal.CallbackScript := do
  return {
    arm := ← optional asNat "arm" request
    nested := ← optional (asNested kind) "nest" request
    edits := ← orElse ⟨none, none, none, none⟩ asEdits "edits" request
    ending := ← asEnding request }

/-- What a callback of a process reaches. -/
inductive CallbackReach where
  /-- The filter itself and the entry points. -/
  | filter
  /-- The entry points alone. -/
  | entryPoints
  deriving DecidableEq

/-- The callback within its reach: without the filter it neither arms a method nor asks for a
decision. -/
def CallbackReach.limit (reach : CallbackReach) (script : Rehearsal.CallbackScript) :
    Rehearsal.CallbackScript :=
  match reach with
  | .filter => script
  | .entryPoints =>
    { script with
      arm := none
      nested := script.nested.map fun nested => { nested with direct := false } }

def request (request : Document) : Decoded Fields := do
  let layout ← orElse .v40 asLayout "layout" request
  return [("ok", orNull (fun request => Document.record [
    ("method", .ofAddress (Compile.CompileRequest.methodHandle request)),
    ("module", .ofAddress request.moduleHandle),
    ("il", .ofBytes request.code),
    ("max_stack", .ofNat request.maxStack.toNat),
    ("eh_count", .ofNat request.clauseCount.toNat),
    ("options", .ofNat request.options.toNat),
    ("locals_count", .ofNat request.localsCount.toNat),
    ("locals_null", request.locals.isNone)])
    ((← asInfo request).map (Compile.CompileRequest.ofInfo layout)))]

/-- The clauses of objects, each with the calls that told them. -/
def clauseReads (reader : Capture.ClauseReader) (method count : Nat) :
    List Address → Rehearsal.World → List Document
  | [], _ => []
  | object :: rest, world =>
    let (clauses, world) := reader.read object method count { world with incidents := [] }
    let answer := Document.record [
      ("clauses", listOf .ofClause clauses),
      ("calls", clauseCalls world.incidents)]
    answer :: clauseReads reader method count rest world

def eh (request : Document) : Decoded Fields := do
  let flavor ← flavorAt request
  let clauses ← listAt asClause "clauses" request
  let method ← natAt "method" request
  let count ← orElse clauses.length asNat "count" request
  let displacements ← listAt asInt "displacements" request
  let (objects, world) := displacements.foldl (fun (objects, world) displacement =>
    let (object, world) := Rehearsal.World.makeInterface { displacement, clauses } world
    (objects ++ [object], world)) (([] : List Address), emptyWorld)
  let (reader, world) := outcome
    (Capture.ClauseReader.locate flavor .x64 (objects.headD 0) world)
  return resultFields (fun reader =>
    .list (clauseReads reader method count objects world)) reader

abbrev ScriptedProcess := Compile.Process Nat Rehearsal.World

/-- Forgets what was noted before a step. -/
def fresh {C W : Type} (change : (Rehearsal.World → Rehearsal.World) → W → W)
    (process : Compile.Process C W) : Compile.Process C W :=
  { process with
    notices := []
    world := change (fun world => { world with incidents := [] }) process.world }

/-- A process in which nothing was noted. -/
def freshScripted : ScriptedProcess → ScriptedProcess := fresh id

def setCallback (kind : Hook.HookKind) (reach : CallbackReach) (request : Document)
    (process : ScriptedProcess) : Decoded ScriptedProcess := do
  let callback ← nullable (asCallback kind) request
  return { process with
    client := 0
    filter := { process.filter with
      callback := callback.map fun script => (reach.limit script).respond } }

def enterCall (scripted : Rehearsal.ScriptedCall) (process : ScriptedProcess) :
    Int32 × ScriptedProcess :=
  let (call, world) := scripted.ready process.world
  Compile.Process.enter call { process with world }

/-- Takes the fault of the last callback that failed. -/
def takeError {C W : Type} (process : Compile.Process C W) : Document × Compile.Process C W :=
  (orNull .ofFault process.filter.stashed,
    process.onFilter fun filter => { filter with stashed := none })

/-- A step that every scripted process has. -/
def processStep (kind : Hook.HookKind) (reach : CallbackReach) (name : String)
    (arguments : List Document) (process : ScriptedProcess) :
    Decoded (Document × ScriptedProcess) := do
  let argument := itemAt 0 arguments
  match name with
  | "module" =>
    let handle ← asNat argument
    return (.null, process.onFilter fun filter => { filter with targetModule := handle })
  | "method" =>
    let handle ← asNat argument
    return (.null, process.onFilter fun filter => { filter with targetMethod := handle })
  | "callback" => return (.null, ← setCallback kind reach argument process)
  | "take_error" => return takeError process
  | "compile" =>
    let (returned, process) := enterCall (← asCall kind argument) process
    return (.ofInt returned.toInt, process)
  | _ => throw (.malformed "unknown step")

/-- A step on a filter and the slots that lead to it. -/
def filterStep (layout : Engine.InfoLayout) (name : String) (arguments : List Document)
    (process : ScriptedProcess) : Decoded (Fields × ScriptedProcess) := do
  let process := freshScripted process
  let argument := itemAt 0 arguments
  let slot : Compile.Slot :=
    { owner := ownThread, layout, replaced := Rehearsal.compilerRoutines.compileMethod }
  let (answer, process) ←
    match name with
    | "filter" =>
      let (call, world) := (← asCall .table argument).ready process.world
      let (decided, process) := Compile.Process.sift (call.event layout) { process with world }
      pure (.ofOutcome decided, process)
    | "stash" =>
      let message ← asText argument
      pure (.null, process.onFilter (.stash (.other message)))
    | "install_method" => pure (.null, Hook.setSlot .table (some slot) process)
    | "install_comp" =>
      let slot := { slot with replaced := Rehearsal.compilerRoutines.compCompile }
      pure (.null, Hook.setSlot .call (some slot) process)
    | "clear" => pure (.null, Hook.setSlot .table none (Hook.setSlot .call none process))
    | _ => processStep .table .filter name arguments process
  let filter := process.filter
  return ([
    ("ok", answer),
    ("state", .list [.ofAddress filter.targetModule, .ofAddress filter.targetMethod,
      .ofNat filter.depth, process.methodSlot.isSome, process.compSlot.isSome]),
    ("notes", callbackNotes true process.world.incidents),
    ("original", compilerCalls process.world.incidents)] ++ noticeFields process.notices, process)

def filter (request : Document) : Decoded Fields := do
  let layout ← orElse .v40 asLayout "layout" request
  let (resolver, answers) ← do
    match field? "introspection" request with
    | none => pure (Engine.Resolver.passthrough, Rehearsal.Answers.none)
    | some introspection =>
      let flavor ← flavorAt request
      pure (Engine.Resolver.ofFlavor flavor, ← asAnswers introspection)
  let process := emptyProcess 0 { emptyWorld with answers }
  let process := process.onFilter fun _ => .disarmed resolver
  let (answers, _) ← runSteps (filterStep layout) (← stepsAt request) process
  return [("originals", .list [true, true]), ("steps", .list answers)]

end CilCapture.Service
