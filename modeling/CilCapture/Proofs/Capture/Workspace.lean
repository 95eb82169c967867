import CilCapture.Capture.Recorder
import CilCapture.Proofs.Compile.Keeping

/-!
# What keeps the output module

The world cannot reach the output module, and neither can what the workspace does by means of the
world: resolving handles, native calls, placing code. An errand of a strategy could; `KeepsOutput`
says that it stores no other output module.

`HasOutput` is a condition like any other, and what keeps it is shown with the lemmas for
conditions. The parts that work through the world keep it without being asked, so only the errands
of a strategy carry an assumption.
-/

namespace CilCapture.Capture

open Engine Compile

variable {C M W α ε : Type}

/-! ## Telling clauses -/

/-- A step told with another kind of failure keeps what it kept. -/
theorem keeps_faulting {σ : Type} {holds : σ → Prop} {step : EStateM Fault σ α}
    (keeps : Keeps holds step) : Keeps holds (faulting step) := by
  intro state here
  have there := keeps state here
  unfold Capture.faulting
  cases taken : step state <;> rw [taken] at there <;> exact there

/-- Looking for the routine that reads clauses keeps what the placing of code keeps. -/
theorem keeps_locate [NativeCode W] [CodeSpace W] {holds : W → Prop} (placing : PlacingKeeps holds)
    (flavor : Flavor) (architecture : Architecture) (jitInfo : Address) :
    Keeps holds (ClauseReader.locate flavor architecture jitInfo) := by
  unfold ClauseReader.locate
  refine keeps_get.bind fun world => ?_
  exact (keeps_callable placing _ _ _ _).bind fun function => keeps_pure _

/-- Reading a clause is a native call and keeps what native calls keep. -/
theorem holds_readFrom [NativeCode W] {holds : W → Prop} (native : NativeKeeps holds)
    (reader : ClauseReader) (object method : Address) (count index : Nat) {world : W}
    (here : holds world) : holds (reader.readFrom object method count index world).2 := by
  induction count generalizing index world with
  | zero => exact here
  | succ count ih => exact ih _ (native.clauseInfo here _ _ _ _)

/-! ## Errands -/

/-- An errand that, started with an output module, stores no other one. -/
def KeepsOutput (output : Option M) : Errand ε (Workspace M W) α → Prop
  | .done _ => True
  | .observe next => ∀ workspace, workspace.output = output → KeepsOutput output (next workspace)
  | .store workspace next => workspace.output = output ∧ KeepsOutput output next
  | .compile _ next => ∀ result, KeepsOutput output (next result)

/-- A workspace with this output module. -/
def HasOutput (output : Option M) (workspace : Workspace M W) : Prop := workspace.output = output

/-- What is done on the world alone keeps the output module. -/
theorem keepsOutput_lift (output : Option M) (routine : Routine W α) :
    KeepsOutput output (Workspace.lift routine) := by
  induction routine with
  | done result => trivial
  | observe next ih => exact fun workspace _ => ih workspace.world
  | store world next ih => exact fun workspace same => ⟨same, ih⟩
  | compile call next ih => exact fun result => ih result

/-- Keeping the output module, as a condition on workspaces. -/
theorem keeps_of_keepsOutput {output : Option M} {errand : Errand ε (Workspace M W) α}
    (keeps : KeepsOutput output errand) : errand.Keeps (HasOutput output) := by
  induction errand with
  | done result => trivial
  | observe next ih => exact fun workspace same => ih workspace (keeps workspace same)
  | store workspace next ih => exact ⟨keeps.1, ih keeps.2⟩
  | compile call next ih => exact fun result => ih result (keeps result)

/-! ## Steps -/

section

variable (output : Option M)

/-- A step on the world does not touch the output module. -/
theorem output_onWorld (step : EStateM Fault W α) :
    Keeps (HasOutput output) (Workspace.onWorld (M := M) step) := by
  intro workspace same
  unfold Workspace.onWorld
  cases step workspace.world <;> exact same

/-- Placing code does not touch the output module. -/
theorem output_placing [CodeSpace W] : PlacingKeeps (HasOutput (W := W) output) :=
  fun _ => output_onWorld output _

/-- Native calls do not touch the output module. -/
theorem output_native [NativeCode W] : NativeKeeps (HasOutput (W := W) output) :=
  ⟨fun same _ _ => same, fun same _ _ _ _ => same⟩

/-- The engine's answers do not touch the output module. -/
theorem output_answering [Introspection W] : AnsweringKeeps (HasOutput (W := W) output) :=
  ⟨fun _ => output_onWorld output _, fun _ => output_onWorld output _,
    fun _ => output_onWorld output _⟩

end

end CilCapture.Capture
