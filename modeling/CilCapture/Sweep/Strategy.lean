import CilCapture.Capture.Recorder
import CilCapture.Compile.MethodRoutines
import CilCapture.Sweep.Settings

/-!
# Strategies

What a sweep works with: a host that runs the packed module, a loader that opens modules, and a
strategy for the packer at hand. A packer may need work around the module's initialization, may
leave methods alone, may need its own way to the compiler, may have its tokens mapped and may leave
code behind. Detectors choose a strategy by looking at the module; where none does, every method
that has a body is captured.
-/

namespace CilCapture.Sweep

open Capture Compile

/-- The services of the process that hosts the engine. -/
structure Host (W : Type) where
  /-- The handle of the packed module. -/
  moduleHandle : Handle
  /-- Where its image is mapped. -/
  imageBase : Address
  /-- The handle of a method, if it has one. -/
  methodHandle : Token → Routine W (Option Handle)
  /-- Runs a static constructor. -/
  invoke : Token → Routine W Unit

structure Loader (M W : Type) where
  /-- Opens the module at a path. -/
  load : String → EStateM Fault W M
  /-- Opens a module held in memory. -/
  loadBytes : Bytes → EStateM Fault W M

structure Context (M W : Type) where
  settings : Settings
  environment : Engine.Environment
  /-- The packed module as it was loaded. -/
  packed : M
  host : Host W
  routines : MethodRoutines W

structure Strategy (M W : Type) where
  /-- The packer's name. -/
  name : String
  /-- Runs before the static constructor. -/
  preInitialize : Context M W → Routine (Workspace M W) Unit := fun _ => pure ()
  /-- Runs once the snapshot is loaded as the output module. -/
  postInitialize : Context M W → Routine (Workspace M W) Unit := fun _ => pure ()
  /-- Whether a method must be captured. -/
  needsCapture : Context M W → Nat → Routine (Workspace M W) Bool
  /-- Brings a method to the compiler. -/
  forceCompile : Context M W → Handle → Routine (Workspace M W) Unit :=
    fun context method => Workspace.lift (context.routines.force method)
  /-- Removes the packer's own code from the output module. -/
  removeRuntimeSupport : Context M W → M → Routine (Workspace M W) M := fun _ output => pure output
  /-- Maps the tokens of captured code. -/
  resolver : Body.TokenResolver (Errand Abort (Workspace M W)) := .identity

/-- The strategy for a module that no detector recognizes. -/
def Strategy.unknown {M W : Type} [ModuleStore M W] : Strategy M W where
  name := "Unknown"
  needsCapture context row := .done (ModuleStore.hasBody row context.packed)

abbrev Detector (M W : Type) := M → Option (Strategy M W)

/-- The strategy of the first detector that recognizes a module. -/
def detect {M W : Type} [ModuleStore M W] (detectors : List (Detector M W)) (module_ : M) :
    Strategy M W :=
  (detectors.findSome? fun detector => detector module_).getD .unknown

end CilCapture.Sweep
