import CilCapture.Engine.Patch
import CilCapture.Service.Engine

/-!
# Requests about patches

Single patches, and sets of them that are applied and undone.
-/

namespace CilCapture.Service

open Document

namespace Document

def ofPatch (patch : Engine.Patch) : Document := Document.record [
  ("intent", patch.intent.name),
  ("address", .ofAddress patch.address),
  ("original", .ofBytes patch.saved),
  ("replacement", .ofBytes patch.replacement)]

end Document

/-- Reads a patch; making it may fail. -/
def asPatch (request : Document) : Decoded (Except Fault Engine.Patch) := do
  let intent ← required asIntent "intent" request
  let address ← natAt "address" request
  return Engine.Patch.make intent address (← bytesAt "original" request)
    (← bytesAt "replacement" request)

def patchNew (request : Document) : Decoded Fields := do
  return resultFields .ofPatch (← asPatch request)

/-- Answers the patch of a site in memory. -/
def patchCapture (request : Document) : Decoded Fields := do
  let memory ← asMemory request
  return resultFields .ofPatch
    (Engine.Patch.capture (← required asIntent "intent" request) (← natAt "address" request)
      (← bytesAt "replacement" request) (← bytesAt "prefix" request) memory)

structure PatchRun where
  set : Option Engine.PatchSet
  memory : Memory.GuardedMemory
  patches : List Engine.Patch
  /-- What was reported and not yet told. -/
  pending : List Notice

/-- A step on a patch set or its memory. -/
def patchStep (name : String) (arguments : List Document) (run : PatchRun) :
    Decoded (Fields × PatchRun) := do
  let onSet (step : Engine.PatchSet → Memory.GuardedMemory →
      Except Fault Unit × Engine.PatchSet × Memory.GuardedMemory) :
      Except Fault Document × PatchRun :=
    match run.set with
    | none => (.ok .null, run)
    | some set =>
      let (answer, set, memory) := step set run.memory
      (answer.map .ofUnit, { run with set := some set, memory })
  let (answer, run) ←
    match name with
    | "apply" => pure (onSet Engine.PatchSet.apply)
    | "restore" => pure (onSet Engine.PatchSet.restore)
    | "drop" =>
      match run.set with
      | none => pure (.ok .null, run)
      | some set =>
        let (memory, notices) := set.drop run.memory
        pure (.ok .null, { run with set := none, memory, pending := run.pending ++ notices })
    | _ =>
      let (answer, memory) ← memoryStep name arguments run.memory
      pure (answer, { run with memory })
  let held (patch : Engine.Patch) : Document :=
    seen .ofBytes (Memory.AddressSpace.read patch.address patch.saved.length run.memory)
  return (resultFields id answer ++ [
    ("applied", orNull (fun set => Document.flag (Engine.PatchSet.applied set)) run.set),
    ("sites", listOf held run.patches)] ++ noticeFields run.pending, { run with pending := [] })

def asPatchSet (request : Document) (memory : Memory.GuardedMemory) :
    Decoded (Except Fault Engine.PatchSet × List Notice) := do
  match field? "runtime" request with
  | some runtime =>
    let environment ← asEnvironment runtime
    match environment with
    | .error fault => return (.error fault, [])
    | .ok environment =>
      let (table, notices) := Engine.OffsetTable.parse (← textAt "table" runtime)
      return (do Engine.PatchSet.ofEngine environment (← table) memory, notices)
  | none =>
    let architecture ← architectureAt request
    let patches ← listAt asPatch "patches" request
    return (do return Engine.PatchSet.ofPatches architecture (← patches.mapM id), [])

/-- Answers steps on a patch set. The first step tells what was reported when the set was made. -/
def patches (request : Document) : Decoded (Fields × List Notice) := do
  let memory ← asMemory request
  let (set, notices) ← asPatchSet request memory
  match set with
  | .error fault => return (faultFields fault, notices)
  | .ok set =>
    let (answers, run) ← runSteps patchStep (← stepsAt request)
      { set := some set, memory, patches := set.patches, pending := notices }
    let left :=
      match run.set with
      | some set => (set.drop run.memory).2
      | none => []
    return ([("patches", listOf .ofPatch set.patches), ("steps", .list answers)],
      run.pending ++ left)

end CilCapture.Service
