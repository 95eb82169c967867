import CilCapture.Capture.Session
import CilCapture.Service.Redirects

/-!
# Requests about sessions

A session on a rehearsed compiler: armed, called, and its captures installed.
-/

namespace CilCapture.Service

open Document

abbrev Store := Rehearsal.TableModule

/-- A process with a recorder behind its filter. -/
abbrev ScriptedCapture :=
  Compile.Process Capture.Recorder (Capture.Workspace Store Rehearsal.World)

abbrev ScriptedSession := Capture.Session Store Rehearsal.World

def asStore (request : Document) : Decoded Store := do
  return {
    bodies := ← listAt (nullable asBytes) "bodies" request
    signatures := ← listAt (nullable asBytes) "signatures" request
    globalConstructor := ← optional asToken "global_cctor" request
    typeConstructors := ← listAt asToken "type_cctors" request
    types := ← listAt asText "types" request
    failing := ← listAt asText "errors" request }

def Document.ofRows (read : Nat → Except Fault (Option Bytes)) (count : Nat) : Document :=
  listOf (fun row => .ofResult (orNull .ofBytes) (read row)) (List.range' 1 count)

/-- The rows of a module as they are read back. -/
def Document.ofStore (store : Store) : Document := .record [
  ("bodies", .ofRows store.methodBody store.bodies.length),
  ("signatures", .ofRows store.signature store.signatures.length)]

def Document.ofRecord (record : Capture.CaptureRecord) : Document :=
  .list [.ofNat record.row, record.success, .ofBytes record.code, .ofNat record.total,
    .ofToken record.token]

def sessionWorld (session : ScriptedSession) : Rehearsal.World := session.process.world.world

def sessionState (session : ScriptedSession) : Document :=
  let recorder := session.process.client
  .list [recorder.phase.name, .ofNat recorder.count, session.redirect.installed]

/-- A session in which nothing was noted. -/
def freshSession (session : ScriptedSession) : ScriptedSession :=
  session.onProcess
    (fresh fun change workspace => { workspace with world := change workspace.world })

structure DumperRun where
  session : ScriptedSession
  /-- The body taken last. -/
  taken : Option Capture.StagedBody

def Document.ofStaged (staged : Capture.StagedBody) : Document :=
  .list [.ofNat staged.row, .ofBody staged.body]

def dumperStep (scene : Scene) (name : String) (arguments : List Document) (run : DumperRun) :
    Decoded (Fields × DumperRun) := do
  let session := freshSession run.session
  let run := { run with session }
  let argument := itemAt 0 arguments
  let on (step : ScriptedSession → Except Fault Unit × ScriptedSession) : Fields × DumperRun :=
    let (answer, session) := step session
    (resultFields .ofUnit answer, { run with session })
  let quietly (change : ScriptedSession → ScriptedSession) : Fields × DumperRun :=
    ([("ok", .null)], { run with session := change session })
  let (fields, run) ←
    match name with
    | "hook" => pure (on Capture.Session.hook)
    | "unhook" => pure (on Capture.Session.unhook)
    | "target" =>
      let row ← asNat argument
      let handle ← asNat (itemAt 1 arguments)
      pure (quietly (·.arm row handle))
    | "idle" => pure (quietly (·.idle))
    | "record_failure" =>
      let row ← asNat argument
      pure (quietly (·.recordFailure row))
    | "output" =>
      let output ← nullable asStore argument
      pure (quietly (·.setOutput output))
    | "compile" =>
      let scripted ← asCall scene.kind argument
      let (call, world) := scripted.ready (sessionWorld session)
      let process := { session.process with world := { session.process.world with world } }
      let (returned, process) := Compile.Process.enter call process
      pure ([("ok", .ofInt returned.toInt), ("eh", clauseCalls process.world.world.incidents)],
        { run with session := { session with process } })
    | "take_error" =>
      let (cause, session) := session.takeError
      pure ([("ok", orNull .ofFault cause)], { run with session })
    | "take_staged" =>
      let (staged, session) := session.takeStaged
      let taken := staged.or run.taken
      pure ([("ok", orNull .ofStaged taken)], { session, taken })
    | "install" =>
      match run.taken with
      | none => pure ([("ok", Document.text "nothing staged")], run)
      | some staged =>
        let row ←
          match arguments with
          | row :: _ => asNat row
          | [] => pure staged.row
        pure (on (Capture.Session.install row staged.body))
    | "dump" => pure ([("ok", orNull .ofStore session.process.world.output)], run)
    | "records" => pure ([("ok", listOf .ofRecord session.process.client.records)], run)
    | _ => throw (.malformed "unknown step")
  let session := run.session
  return (fields ++ [
    ("state", sessionState session),
    ("original", compilerCalls (sessionWorld session).incidents)] ++
    noticeFields session.process.notices, run)

def dumper (request : Document) : Decoded (Fields × List Notice) := do
  let moduleHandle ← natAt "module" request
  let output ← optional asStore "output" request
  let tokens ← optional asTokenMap "resolver" request
  let scene ← asScene request
  match (do
    let context ← settle scene.context
    let redirect ← scene.create scene.kind
    return (context, redirect) : EStateM Fault (ScriptedCapture) _)
      (.idle .fresh { output, world := scene.world }) with
  | .error fault _ => return (faultFields fault, [])
  | .ok (context, redirect) process =>
    let rules : Capture.CaptureRules Store Rehearsal.World := {
      resolver := (tokens.map Rehearsal.TokenMap.resolver).getD .identity
      flavor := context.environment.flavor
      architecture := context.environment.architecture }
    let session := Capture.Session.start redirect moduleHandle rules process
    let (answers, run) ← runSteps (dumperStep scene) (← stepsAt request) ⟨session, none⟩
    let process := (freshSession run.session).finish
    return ([("steps", .list answers),
      ("sites", .ofSites scene.placement process.world.world.memory)], process.notices)

end CilCapture.Service
