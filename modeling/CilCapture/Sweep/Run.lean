import CilCapture.Image.Snapshot
import CilCapture.Signature.Locals
import CilCapture.Sweep.Constructor
import CilCapture.Sweep.State

/-!
# Sweeps

A sweep drives one packed module from load to output: it patches the engine, installs the redirect,
lets the packer decrypt its metadata, takes a snapshot as the output module, and captures every
method that needs it. A method's body is installed only when exactly one capture of it succeeded. A
failure before the first method ends the sweep, a failure of one method is counted. Redirect and
patches are taken down in either case; only after that, and only if a body was captured, is the
output written. A stand-alone signature without a blob makes a module unreadable, so each gets the
placeholder before that.
-/

namespace CilCapture.Sweep

open Capture Compile Memory

structure Summary where
  captured : Nat
  failed : Nat
  /-- Methods without a handle and those the strategy leaves alone. -/
  skipped : Nat
  /-- Where the output was written, if it was. -/
  output : Option String
  deriving DecidableEq, Repr

def Summary.empty : Summary := ⟨0, 0, 0, none⟩

/-! ## Filling signatures -/

section

variable {M W : Type} [ModuleStore M W]

/-- Fills the rows among those given; the result is their number. -/
def fillRows : List Nat → EStateM Fault M Nat
  | [] => pure 0
  | row :: rest => do
    let blob ← settle (ModuleStore.signature row (← get))
    if blob.isSome then fillRows rest
    else
      ModuleStore.setSignature row Signature.placeholder
      return (← fillRows rest) + 1

/-- Gives every stand-alone signature without a blob the placeholder; the result is their number. -/
def fillSignatures : EStateM Fault M Nat := fun module_ =>
  fillRows (List.range' 1 (ModuleStore.signatureCount module_)) module_

end

namespace Plan

variable {M W : Type} [ModuleStore M W] [AddressSpace W] [Engine.Introspection W] [NativeCode W]

/-! ## Initialization -/

/-- The file of the packed module as it is mapped now. -/
def snapshot (plan : Plan M W) : SweepStep M W Bytes := do
  let state ← get
  let memory := state.session.process.world.world
  settle (Image.reconstruct plan.parser plan.context.host.imageBase memory)

/-- Runs the static constructor, if there is one. -/
def runConstructor (plan : Plan M W) : Option Token → SweepStep M W Unit
  | some token => perform (Workspace.lift (plan.context.host.invoke token))
  | none => pure ()

/-- Brings the packed module to the point where its methods can be captured. -/
def bringUp (plan : Plan M W) : SweepStep M W Unit := do
  perform (plan.strategy.preInitialize plan.context)
  let constructor_ ← settle (selectConstructor plan.context.packed)
  if constructor_.isNone then notice .noStaticConstructor
  let image ←
    if plan.context.settings.snapshotFirst then do
      let image ← plan.snapshot
      plan.runConstructor constructor_
      pure image
    else do
      plan.runConstructor constructor_
      plan.snapshot
  let output ← onWorld (plan.loader.loadBytes image)
  setOutput (some output)
  perform (plan.strategy.postInitialize plan.context)

/-! ## Capturing -/

/-- The body to install after a capture: the staged one, if exactly one capture succeeded. -/
def stagedOnce (staged : Option StagedBody) (captures : Nat) : Except Fault StagedBody :=
  match staged with
  | some body => if captures = 1 then .ok body else .error (.captureCountMismatch 1 captures)
  | none => .error (.captureCountMismatch 1 captures)

/-- Has a method compiled while its row is armed, and installs what was captured. -/
def captureArmed (plan : Plan M W) (row : Nat) (handle : Handle) : SweepStep M W Unit := do
  let before := (← get).captures
  changeSession (·.arm row handle)
  let compiled ← attempt (perform (plan.strategy.forceCompile plan.context handle))
  changeSession Session.idle
  let staged ← takeFrom Session.takeStaged
  match ← takeFrom Session.takeError with
  | some cause => throw cause
  | none =>
    settle compiled
    let body ← settle (stagedOnce staged ((← get).captures - before))
    onSession (Session.install body.row body.body)

/-- Captures a method; tells whether it was not skipped. -/
def captureRow (plan : Plan M W) (row : Nat) : SweepStep M W Bool := do
  let token := Token.ofMethod (UInt32.ofNat row)
  match ← perform (Workspace.lift (plan.context.host.methodHandle token)) with
  | none => return false
  | some handle =>
    if ← perform (plan.strategy.needsCapture plan.context row) then
      plan.captureArmed row handle
      return true
    else return false

/-- Captures a method and counts the outcome; a fault is reported as the method's. -/
def countRow (plan : Plan M W) (row : Nat) (summary : Summary) (state : SweepState M W) :
    Summary × SweepState M W :=
  match plan.captureRow row state with
  | .ok true state => ({ summary with captured := summary.captured + 1 }, state)
  | .ok false state => ({ summary with skipped := summary.skipped + 1 }, state)
  | .error cause state =>
    let token := Token.ofMethod (UInt32.ofNat row)
    let session := state.session.onProcess (·.report [.captureFailed token (.capture token cause)])
    ({ summary with failed := summary.failed + 1 },
      { state with session := session.recordFailure row })

def countRows (plan : Plan M W) :
    List Nat → Summary → SweepState M W → Summary × SweepState M W
  | [], summary, state => (summary, state)
  | row :: rest, summary, state =>
    let (summary, state) := plan.countRow row summary state
    plan.countRows rest summary state

/-- Captures every method of the packed module. -/
def captureAll (plan : Plan M W) : SweepStep M W Summary := fun state =>
  let rows := List.range' 1 (ModuleStore.methodCount plan.context.packed)
  let (summary, state) := plan.countRows rows .empty state
  .ok summary state

/-! ## Taking down and finishing -/

/-- Takes redirect and patches down, both whatever fails; of two faults the first one counts. -/
def takeDown : SweepStep M W Unit := do
  let unhooked ← attempt (onSession Session.unhook)
  let restored ← attempt (onPatches Engine.PatchSet.restore)
  settle unhooked
  settle restored

/-- Installs the redirect; where that fails, the patches are taken back. -/
def hookOrRestore : SweepStep M W Unit := do
  match ← attempt (onSession Session.hook) with
  | .ok () => return ()
  | .error cause =>
    match ← attempt (onPatches Engine.PatchSet.restore) with
    | .ok () => throw cause
    | .error left =>
      notice (.patchesNotRestored left)
      throw cause

/-- Takes the output module out of its slot. -/
def takeOutput : SweepStep M W M := do
  match (← get).output with
  | none => throw .noOutputModule
  | some output =>
    setOutput none
    return output

/-- Makes the output module complete and writes it if anything was captured. The module is out of
its slot until all of this is done. -/
def finish (plan : Plan M W) (summary : Summary) : SweepStep M W Summary := do
  let settings := plan.context.settings
  let output ← takeOutput
  let output ←
    if settings.removesRuntimeSupport then
      perform (plan.strategy.removeRuntimeSupport plan.context output)
    else pure output
  match fillSignatures output with
  | .error cause _ => throw cause
  | .ok _ output =>
    if summary.captured = 0 then
      setOutput (some output)
      return summary
    else
      let path := settings.outputPath plan.input
      onWorld (ModuleStore.write path settings.writeOptions output)
      setOutput (some output)
      return { summary with output := some path }

def run (plan : Plan M W) : SweepStep M W Summary := do
  onPatches Engine.PatchSet.apply
  hookOrRestore
  let swept ← attempt do
    plan.bringUp
    plan.captureAll
  let takenDown ← attempt takeDown
  let summary ← settle swept
  settle takenDown
  plan.finish summary

end Plan

end CilCapture.Sweep
