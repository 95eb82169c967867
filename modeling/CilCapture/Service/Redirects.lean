import CilCapture.Service.Calls

/-!
# Requests about redirects

Redirects of a rehearsed compiler from their creation to their end, and the session that each owns.
-/

namespace CilCapture.Service

open Document

/-- Reads a kind of redirect, which may be unknown. -/
def asKindName (request : Document) : Decoded (Except Fault Hook.HookKind) := do
  return Hook.HookKind.parse (← asText request)

def asKind (request : Document) : Decoded Hook.HookKind := do
  match ← asKindName request with
  | .ok kind => return kind
  | .error fault => throw (.malformed fault.message)

/-- A rehearsed compiler, and what redirects of it are made from. -/
structure Scene where
  kind : Hook.HookKind
  placement : Rehearsal.Placement
  /-- What a redirect is created with; the engine may not be one that is known. -/
  context : Except Fault Hook.HookContext
  world : Rehearsal.World

/-- The world of a request: its memory with the compiler's image, and what its engine answers. -/
def asSceneWorld (placement : Rehearsal.Placement) (request : Document) :
    Decoded Rehearsal.World := do
  let replaced ← listAt (pairOf asNat asBytes) "jit_bytes" request
  let readOnly ← listAt asRange "jit_readonly" request
  let (mapped, memory) := outcome (placement.mapImage replaced readOnly (← asMemory request))
  setUp mapped
  return { Rehearsal.World.ofMemory memory with
    answers := ← orElse .none asAnswers "introspection" request }

def asContext (placement : Rehearsal.Placement) (request : Document) :
    Decoded (Except Fault Hook.HookContext) := do
  let compilerInstance ←
    if ← boolAt "no_instance" request then pure 0
    else setUp (placement.base.advance (← orElse Rehearsal.instanceOffset asNat "instance" request))
  let offset ← orElse (UInt32.ofNat Rehearsal.callOffset) asWord "call_comp_compile" request
  let flavor ← flavorAt request
  let environment ← asEnvironment request
  return environment.map fun environment =>
    let modules := { environment.modules with compilerBase := placement.base, compilerInstance }
    { environment := { environment with modules }
      table := Rehearsal.callTable modules.engineVersion offset
      entries := Rehearsal.entryPoints
      resolver :=
        if (field? "introspection" request).isSome then .ofFlavor flavor else .passthrough }

def asScene (request : Document) : Decoded Scene := do
  let placement : Rehearsal.Placement :=
    if (← textAt "place" request) = "near" then .near else .far
  return {
    kind := ← orElse .call asKind "kind" request
    placement
    context := ← asContext placement request
    world := ← asSceneWorld placement request }

def Scene.create {C W : Type} [Memory.AddressSpace W] [Engine.CodeSpace W] (scene : Scene)
    (kind : Hook.HookKind) : EStateM Fault (Compile.Process C W) Hook.Redirect := do
  Hook.create ownThread kind (← settle scene.context)

def Document.ofReached : Rehearsal.Reached → Document
  | .compiler => "original"
  | .entry => "entry"
  | .elsewhere address => objectOr address

def Document.ofCallSite : Rehearsal.CallSite → Document
  | .direct target => .ofReached target
  | .through displacement stub => Document.record [
    ("displacement", .ofInt displacement),
    ("stub", orNull (fun (bytes, target) => .list [.ofBytes bytes, .ofReached target]) stub)]

/-- Where the sites of the image lead. -/
def Document.ofSites (placement : Rehearsal.Placement) (memory : Memory.GuardedMemory) : Document :=
  Document.record [
    ("call", seen .ofCallSite (placement.callSite memory)),
    ("table", seen .ofReached (placement.tableSite memory))]

structure HookRun where
  kept : List Hook.Redirect
  process : ScriptedProcess

def hookStep (scene : Scene) (name : String) (arguments : List Document) (run : HookRun) :
    Decoded (Fields × HookRun) := do
  let process := freshScripted run.process
  let run := { run with process }
  let base := scene.placement.base
  let onFirst (step : Hook.Redirect → ScriptedProcess →
      Except Fault Unit × Hook.Redirect × ScriptedProcess) : Fields × HookRun :=
    match run.kept with
    | [] => ([("ok", .null)], run)
    | redirect :: rest =>
      let (answer, redirect, process) := step redirect process
      (resultFields .ofUnit answer, { kept := redirect :: rest, process })
  let onMemory (step : EStateM Fault Memory.GuardedMemory Unit) : Fields × HookRun :=
    let (answer, process) := outcome
      (Compile.Process.onWorld (Rehearsal.World.onMemory step) process)
    (resultFields .ofUnit answer, { run with process })
  let (fields, run) ←
    match name with
    | "create" =>
      let kind ←
        match arguments with
        | argument :: _ => asKindName argument
        | [] => pure (.ok scene.kind)
      let (answer, process) := outcome ((settle kind >>= scene.create) process)
      let kept :=
        match answer with
        | .ok redirect => run.kept ++ [redirect]
        | .error _ => run.kept
      pure (resultFields (fun redirect => .text (Hook.HookKind.name redirect.kind)) answer,
        { kept, process })
    | "create_direct" =>
      let (answer, process) := outcome (scene.create scene.kind process)
      let process :=
        match answer with
        | .ok redirect => redirect.drop process
        | .error _ => process
      let offset (redirect : Hook.Redirect) : Document :=
        if redirect.site.address < base then .broken
        else .ofAddress (redirect.site.address - base)
      pure (resultFields offset answer, { run with process })
    | "drop" =>
      match run.kept.getLast? with
      | none => pure ([("ok", Document.flag false)], run)
      | some redirect =>
        pure ([("ok", Document.flag true)],
          { kept := run.kept.dropLast, process := redirect.drop process })
    | "guard" =>
      let (answer, process) := outcome (Hook.acquireSession process)
      let process := if answer.toBool then Hook.releaseSession process else process
      pure (resultFields .ofUnit answer, { run with process })
    | "hook" => pure (onFirst Hook.Redirect.install)
    | "unhook" => pure (onFirst Hook.Redirect.remove)
    | "poke" =>
      let address ← setUp (base.advance (← asNat (itemAt 0 arguments)))
      pure (onMemory (Memory.AddressSpace.write address (← asBytes (itemAt 1 arguments))))
    | "protect" =>
      let start ← setUp (base.advance (← asNat (itemAt 0 arguments)))
      let length ← asNat (itemAt 1 arguments)
      pure (onMemory (modify (·.protect [{ start, length }])))
    | "unprotect" => pure (onMemory (modify (·.unprotect)))
    | "compile" =>
      let (answer, process) ← processStep scene.kind .entryPoints name arguments process
      pure ([("ok", answer)], { run with process })
    | _ =>
      if run.kept.isEmpty then pure ([("ok", .null)], run)
      else
        let (answer, process) ← processStep scene.kind .entryPoints name arguments process
        pure ([("ok", answer)], { run with process })
  let process := run.process
  let filter := process.filter
  let shown (redirect : Hook.Redirect) : Document :=
    .list [redirect.installed, .ofAddress filter.targetModule, .ofAddress filter.targetMethod,
      .ofNat filter.depth]
  return (fields ++ [
    ("hook", orNull shown run.kept.head?),
    ("installed", .list [process.methodSlot.isSome, process.compSlot.isSome]),
    ("notes", callbackNotes false process.world.incidents),
    ("original", compilerCalls process.world.incidents),
    ("sites", .ofSites scene.placement process.world.memory)] ++ noticeFields process.notices, run)

def hook (request : Document) : Decoded (Fields × List Notice) := do
  let scene ← asScene request
  let (answers, run) ← runSteps (hookStep scene) (← stepsAt request)
    ⟨[], emptyProcess 0 scene.world⟩
  let process := run.kept.foldl (fun process redirect => redirect.drop process)
    (freshScripted run.process)
  return ([("steps", .list answers)], process.notices)

def guardStep (name : String) (_arguments : List Document)
    (state : Nat × Compile.Process Unit Unit) :
    Decoded (Fields × Nat × Compile.Process Unit Unit) := do
  let (kept, process) := state
  match name with
  | "acquire" =>
    let (answer, process) := outcome (Hook.acquireSession process)
    return (resultFields .ofUnit answer, if answer.toBool then kept + 1 else kept, process)
  | "release" =>
    if kept = 0 then return ([("ok", Document.flag false)], kept, process)
    else return ([("ok", Document.flag true)], kept - 1, Hook.releaseSession process)
  | _ => throw (.malformed "unknown step")

def guards (request : Document) : Decoded Fields := do
  let (answers, _) ← runSteps guardStep (← stepsAt request) (0, .idle () ())
  return [("steps", .list answers)]

end CilCapture.Service
