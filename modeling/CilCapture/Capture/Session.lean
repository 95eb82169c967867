import CilCapture.Capture.Recorder
import CilCapture.Hook.Redirect
import CilCapture.ModuleStore

/-!
# Capture sessions

A session drives a redirect with a recorder behind it: it arms one method, has it compiled, and
installs the staged body in the output module.
-/

namespace CilCapture.Capture

open Compile Hook Memory

/-- A redirect and the process it works in. -/
structure Session (M W : Type) where
  redirect : Redirect
  process : Process Recorder (Workspace M W)

namespace Session

variable {M W : Type}

/-- A session that captures methods of a module. -/
def start [NativeCode W] [Engine.CodeSpace W] (redirect : Redirect) (moduleHandle : Handle)
    (rules : CaptureRules M W) (process : Process Recorder (Workspace M W)) : Session M W where
  redirect
  process := { process with
    filter := { process.filter with
      targetModule := moduleHandle
      callback := some (record rules) }
    client := .fresh }

def onProcess (change : Process Recorder (Workspace M W) → Process Recorder (Workspace M W))
    (session : Session M W) : Session M W :=
  { session with process := change session.process }

/-- Changes the recorder and arms the filter with a method. -/
def target (method : Handle) (change : Recorder → Recorder) (session : Session M W) :
    Session M W :=
  session.onProcess fun process =>
    { process with
      client := change process.client
      filter := { process.filter with targetMethod := method } }

/-- Arms a row, whose method has the given handle. -/
def arm (row : Nat) (method : Handle) (session : Session M W) : Session M W :=
  session.target method (.arm row)

def idle (session : Session M W) : Session M W := session.target 0 .idle

def recordFailure (row : Nat) (session : Session M W) : Session M W :=
  session.onProcess fun process => { process with client := process.client.recordFailure row }

/-- Takes the fault of the last callback that failed. -/
def takeError (session : Session M W) : Option Fault × Session M W :=
  (session.process.filter.stashed,
    session.onProcess (.onFilter fun filter => { filter with stashed := none }))

def takeStaged (session : Session M W) : Option StagedBody × Session M W :=
  (session.process.client.staged,
    session.onProcess fun process =>
      { process with client := { process.client with staged := none } })

def setOutput (output : Option M) (session : Session M W) : Session M W :=
  session.onProcess fun process => { process with world := { process.world with output } }

/-- Stores a body in the output module. -/
def install [ModuleStore M W] (row : Nat) (body : Body.MethodBody) (session : Session M W) :
    Except Fault Unit × Session M W :=
  match session.process.world.output with
  | none => (.error .noOutputModule, session)
  | some output =>
    match ModuleStore.replaceBody row body output with
    | .ok () output => (.ok (), session.setOutput (some output))
    | .error fault output => (.error fault, session.setOutput (some output))

section

variable [AddressSpace W]

def hook (session : Session M W) : Except Fault Unit × Session M W :=
  let session := session.idle
  let (result, redirect, process) := session.redirect.install session.process
  (result, { redirect, process })

def unhook (session : Session M W) : Except Fault Unit × Session M W :=
  let (result, redirect, process) := session.redirect.remove session.process
  match result with
  | .ok () => (.ok (), idle { redirect, process })
  | .error fault => (.error fault, { redirect, process })

def finish (session : Session M W) : Process Recorder (Workspace M W) :=
  session.redirect.drop session.process

end

end Session

end CilCapture.Capture
