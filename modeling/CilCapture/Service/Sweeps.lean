import CilCapture.Sweep.Prepare
import CilCapture.Sweep.Run
import CilCapture.Service.Patches
import CilCapture.Service.Sessions

/-!
# Requests about sweeps

Settings, the choices that a sweep makes, and whole sweeps with rehearsed collaborators.
-/

namespace CilCapture.Service

open Document

/-- Settings after one of them is set; a kind of redirect may be unknown. -/
def setting (settings : Sweep.Settings) (request : Document) :
    Decoded (Except Fault Sweep.Settings) := do
  let (name, value) ← pairOf asText pure request
  match name with
  | "hook_kind" =>
    let text ← asText value
    return do return { settings with hookKind := ← Hook.HookKind.parse text }
  | "offsets_directory" => return .ok { settings with offsetsDirectory := ← asText value }
  | "dump_before_static_constructor" =>
    return .ok { settings with snapshotFirst := ← asBool value }
  | "preserve_runtime" => return .ok { settings with keepRuntime := ← asBool value }
  | "preserve_tokens" => return .ok { settings with keepTokens := ← asBool value }
  | "keep_max_stacks" => return .ok { settings with keepMaxStacks := ← asBool value }
  | "preserve_all" => return .ok { settings with keepAll := ← asBool value }
  | "output_suffix" => return .ok { settings with outputSuffix := ← asText value }
  | _ => throw (.malformed "unknown setting")

def asSettings (request : Document) : Decoded (Except Fault Sweep.Settings) := do
  (← listAt pure "config" request).foldlM (fun settings request =>
    match settings with
    | .ok settings => setting settings request
    | .error fault => return .error fault) (.ok {})

def Document.ofWriteOptions (options : WriteOptions) : Document :=
  .list [options.keepRowIds, options.keepOffsets, options.keepMaxStacks]

def config (request : Document) : Decoded Fields := do
  let inputs ← listAt asText "inputs" request
  let settings ← asSettings request
  return fieldsOr (fun settings => [
    ("hook_kind", settings.hookKind.name),
    ("offsets_directory", settings.offsetsDirectory),
    ("dump_before", settings.snapshotFirst),
    ("removes_runtime", settings.removesRuntimeSupport),
    ("write", .ofWriteOptions settings.writeOptions),
    ("outputs", listOf (fun input => .text (settings.outputPath input)) inputs)]) settings

/-- Reads a strategy and the modules that it is for. -/
def asPacker (request : Document) : Decoded Rehearsal.PackerScript := do
  return {
    name := ← textAt "name" request
    methods := ← optional asNat "methods" request
    plain := ← boolAt "plain" request
    failing := ← listAt asText "errors" request
    clearsOutput := ← boolAt "clear_output" request
    needsBody := ← boolAt "needs_body" request
    rows := ← optional (fun rows => do (← asList rows).mapM asNat) "rows" request
    removed := ← listAt asText "remove" request
    tokens := ← optional asTokenMap "resolver" request }

def asDetectors (request : Document) : Decoded (List (Sweep.Detector Store Rehearsal.World)) := do
  return (← listAt asPacker "detectors" request).map (·.detector)

def detect (request : Document) : Decoded Fields := do
  let store ← orElse .empty asStore "module" request
  return [("ok", (Sweep.detect (← asDetectors request) store).name)]

def selectConstructor (request : Document) : Decoded Fields := do
  let store ← orElse .empty asStore "module" request
  return resultFields (orNull .ofToken) (Sweep.selectConstructor store)

def fillSignatures (request : Document) : Decoded Fields := do
  let store ← orElse .empty asStore "module" request
  let (answer, store) := outcome (Sweep.fillSignatures store)
  return resultFields .ofNat answer ++ [("signatures", listOf (orNull .ofBytes) store.signatures)]

/-- Reads what a method does when it is forced. -/
def asMethod (kind : Hook.HookKind) (request : Document) : Decoded Rehearsal.MethodScript := do
  return {
    compiles := ← listAt (asCall kind) "compiles" request
    unboxing := ← boolAt "unboxing" request
    wrapped := ← optional asNat "wrapped" request }

def asHost (request : Document) : Decoded Rehearsal.HostScript := do
  return {
    moduleHandle := ← orElse 0x7700 asNat "module" request
    imageBase := ← orElse 0x400000 asNat "image_base" request
    handles := ← numberedAt asNat "handles" request
    writes := ← listAt (pairOf asNat asBytes) "invoke_writes" request
    protects := ← listAt asRange "invoke_protects" request }

/-- An incident of a sweep, unless it is told elsewhere. -/
def Document.ofIncident? : Rehearsal.Incident → Option Document
  | .request call argument => some (.list [call, argument])
  | .step what => some (.list [what])
  | .compiled returned => some (.list ["compiled", .ofInt returned.toInt])
  | .write path options store =>
    some (.list ["write", path, .ofWriteOptions options, Document.record [
      ("bodies", listOf (orNull .ofBytes) store.bodies),
      ("signatures", listOf (orNull .ofBytes) store.signatures),
      ("types", listOf .text store.types)]])
  | _ => none

def events (incidents : List Rehearsal.Incident) : Document :=
  .list (incidents.filterMap Document.ofIncident?)

def Document.ofSummary (summary : Sweep.Summary) : Document := Document.record [
  ("captured", .ofNat summary.captured),
  ("failed", .ofNat summary.failed),
  ("skipped", .ofNat summary.skipped),
  ("output", orNull Document.text summary.output)]

abbrev ScriptedSweep := Sweep.SweepState Store Rehearsal.World

/-- What a run of a sweep came to, and what was seen meanwhile. -/
def runFields (scene : Scene) (watch : List Memory.AddressRange)
    (answer : Except Fault Sweep.Summary) (session : ScriptedSession) : Fields :=
  let world := sessionWorld session
  let watched (range : Memory.AddressRange) : Document :=
    seen .ofBytes (Memory.AddressSpace.read range.start range.length world.memory)
  resultFields .ofSummary answer ++ [
    ("events", events world.incidents),
    ("records", listOf .ofRecord session.process.client.records),
    ("state", sessionState session),
    ("output", orNull .ofStore session.process.world.output),
    ("original", compilerCalls world.incidents),
    ("eh", clauseCalls world.incidents),
    ("sites", .ofSites scene.placement world.memory),
    ("memory", listOf watched watch)] ++
    noticeFields session.process.notices

/-- Runs a sweep a number of times; what was noted is forgotten after each run. -/
def sweepRuns (scene : Scene) (plan : Sweep.Plan Store Rehearsal.World)
    (watch : List Memory.AddressRange) : Nat → ScriptedSweep → List Document × ScriptedSweep
  | 0, state => ([], state)
  | runs + 1, state =>
    let (answer, state) := outcome (plan.run state)
    let fields := runFields scene watch answer state.session
    let (answers, state) :=
      sweepRuns scene plan watch runs { state with session := freshSession state.session }
    (.record fields :: answers, state)

def asCollaborators (request : Document) :
    Decoded (Sweep.Collaborators Store Rehearsal.World) := do
  let failing ← asFailing asText request
  let packed ← orElse .empty asStore "original" request
  let output ← orElse .empty asStore "output" request
  return {
    host := (← asHost request).host failing
    loader := Rehearsal.scriptedLoader (← listAt asText "loader_errors" request) packed output
    parser := .standard
    detectors := ← asDetectors request
    entries := Rehearsal.entryPoints
    owner := ownThread }

def sweep (request : Document) : Decoded (Fields × List Notice) := do
  let scene ← asScene request
  let settings ← asSettings request
  let patches ← listAt asPatch "patches" request
  let collaborators ← asCollaborators request
  let methods ← numberedAt (asMethod scene.kind) "methods" request
  let routines := Rehearsal.scriptedRoutines (← asFailing asText request) methods
  let input ← textAt "input" request
  let runs ← orElse 1 asNat "runs" request
  let watch ← listAt asRange "watch" request
  match (do return (← scene.context, ← settings, ← patches.mapM id) : Except Fault _) with
  | .error fault => return (faultFields fault, [])
  | .ok (context, settings, patches) =>
    let process : ScriptedCapture := .idle .fresh { output := none, world := scene.world }
    match Sweep.prepare { settings with hookKind := scene.kind } input context.environment
        context.table routines collaborators process with
    | .error fault process =>
      return (faultFields fault ++ [("events", events process.world.world.incidents)],
        process.notices)
    | .ok (plan, redirect) process =>
      let (answers, state) := sweepRuns scene plan watch runs
        { patches := .ofPatches .x86 patches, session := { redirect, process } }
      return ([("unpacker", plan.strategy.name), ("runs", .list answers)],
        state.giveUp.notices)

/-- Answers why a sweep of the process itself cannot be prepared. -/
def attach (request : Document) : Decoded (Fields × List Notice) := do
  let directory ← asDirectory request
  let collaborators ← asCollaborators (.record [])
  match ← asModules request with
  | .error fault => return (faultFields fault, [])
  | .ok modules =>
    let process : ScriptedCapture := .idle .fresh { output := none, world := emptyWorld }
    match Sweep.attach {} "" .x64 modules directory collaborators process with
    | .error fault process => return (faultFields fault, process.notices)
    | .ok _ process => return ([("ok", .null)], process.notices)

end CilCapture.Service
