import CilCapture.Sweep.State

/-!
# Preparing a sweep

A sweep is prepared from a classified engine, its offset table, its patches and the collaborators;
`attach` finds the first three for the engine of the process itself. The redirect is created but
not installed, and nothing that was mapped is changed.
-/

namespace CilCapture.Sweep

open Capture Compile Engine Hook Memory

/-- What a sweep is made from, beside the engine. -/
structure Collaborators (M W : Type) where
  host : Host W
  loader : Loader M W
  /-- Decides which headers of a mapped image are accepted. -/
  parser : Image.HeaderParser
  detectors : List (Detector M W)
  /-- The library's entry points. -/
  entries : EntryPoints
  /-- The thread that the sweep runs on. -/
  owner : ThreadId

variable {M W : Type} [ModuleStore M W] [AddressSpace W] [CodeSpace W] [NativeCode W]

/-- Prepares a sweep of the module at `input`. -/
def prepare (settings : Settings) (input : String) (environment : Environment)
    (table : OffsetTable) (routines : MethodRoutines W) (collaborators : Collaborators M W) :
    EStateM Fault (Process Recorder (Workspace M W)) (Plan M W × Redirect) := do
  let host := collaborators.host
  let packed ← Process.onWorld (Workspace.onWorld (collaborators.loader.load input))
  let strategy := detect collaborators.detectors packed
  let resolver := Resolver.ofFlavor environment.flavor
  let redirect ← create collaborators.owner settings.hookKind
    { environment, table, entries := collaborators.entries, resolver }
  let rules : CaptureRules M W := {
    resolver := strategy.resolver
    flavor := environment.flavor
    architecture := environment.architecture }
  modify fun process => (Session.start redirect host.moduleHandle rules process).process
  let context := { settings, environment, packed, host, routines }
  let plan := {
    context, strategy, loader := collaborators.loader, parser := collaborators.parser, input }
  return (plan, redirect)

/-- A sweep of the engine that the process of the given architecture hosts: its table is looked up
in a directory of files and checked against the loaded modules. -/
def attach (settings : Settings) (input : String) (architecture : Architecture)
    (modules : Modules) (directory : String → Option Bytes) (collaborators : Collaborators M W) :
    EStateM Fault (Process Recorder (Workspace M W)) (Plan M W × Redirect × PatchSet) := do
  let environment ← settle (Environment.classify architecture modules)
  let (loaded, notices) := OffsetTable.load directory environment
  modify (·.report notices)
  let table ← settle loaded
  let native ← Process.onWorld
    (NativeRoutines.bind environment.architecture environment.modules.engineBase table)
  let patches ← settle (PatchSet.ofEngine environment table (← get).world)
  let (plan, redirect) ←
    prepare settings input environment table native.routines collaborators
  return (plan, redirect, patches)

end CilCapture.Sweep
