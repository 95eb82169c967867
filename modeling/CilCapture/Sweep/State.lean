import CilCapture.Capture.Session
import CilCapture.Engine.Patch
import CilCapture.Image.Headers
import CilCapture.Sweep.Strategy

/-!
# The state of a sweep

What a sweep changes: the patches of the engine, and the session with the process it works in. Each
part takes its own kind of step; here they become steps of the sweep.
-/

namespace CilCapture.Sweep

open Capture Compile Memory

/-- What a sweep is about; it does not change. -/
structure Plan (M W : Type) where
  context : Context M W
  strategy : Strategy M W
  loader : Loader M W
  /-- Decides which headers of a mapped image are accepted. -/
  parser : Image.HeaderParser
  /-- The path of the packed module. -/
  input : String

structure SweepState (M W : Type) where
  patches : Engine.PatchSet
  session : Session M W

abbrev SweepStep (M W α : Type) := EStateM Fault (SweepState M W) α

section

variable {M W : Type} {α : Type}

namespace SweepState

def output (state : SweepState M W) : Option M := state.session.process.world.output

def captures (state : SweepState M W) : Nat := state.session.process.client.count

/-- Gives a sweep up: patches that are applied are undone, then the redirect is given up. -/
def giveUp [AddressSpace W] (state : SweepState M W) : Process Recorder (Workspace M W) :=
  let (world, notices) := state.patches.drop state.session.process.world
  (state.session.onProcess fun process => ({ process with world }).report notices).finish

end SweepState

def changeSession (change : Session M W → Session M W) : SweepStep M W Unit :=
  modify fun state => { state with session := change state.session }

def onSession (step : Session M W → Except Fault α × Session M W) : SweepStep M W α := fun state =>
  match step state.session with
  | (.ok value, session) => .ok value { state with session }
  | (.error fault, session) => .error fault { state with session }

/-- A step of the session that cannot fail. -/
def takeFrom (step : Session M W → α × Session M W) : SweepStep M W α := fun state =>
  let (value, session) := step state.session
  .ok value { state with session }

def onProcess (step : EStateM Fault (Process Recorder (Workspace M W)) α) : SweepStep M W α :=
  fun state =>
    match step state.session.process with
    | .ok value process => .ok value { state with session := { state.session with process } }
    | .error fault process => .error fault { state with session := { state.session with process } }

def onWorld (step : EStateM Fault W α) : SweepStep M W α :=
  onProcess (Process.onWorld (Workspace.onWorld step))

def setOutput (output : Option M) : SweepStep M W Unit := changeSession (·.setOutput output)

def notice (report : Notice) : SweepStep M W Unit :=
  changeSession (·.onProcess (·.report [report]))

def onPatches
    (step : Engine.PatchSet → Workspace M W → Except Fault Unit × Engine.PatchSet × Workspace M W) :
    SweepStep M W Unit := fun state =>
  let (result, patches, world) := step state.patches state.session.process.world
  let state := { state with patches, session := state.session.onProcess ({ · with world }) }
  match result with
  | .ok () => .ok () state
  | .error fault => .error fault state

def perform [Engine.Introspection W] [NativeCode W] (routine : Routine (Workspace M W) α) :
    SweepStep M W α :=
  onProcess (Process.perform routine)

end

end CilCapture.Sweep
