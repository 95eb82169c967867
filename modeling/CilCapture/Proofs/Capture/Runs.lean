import CilCapture.Proofs.Capture.Made
import CilCapture.Proofs.Capture.Workspace

/-!
# Runs of a recorder

What a run of the recorder's callback does to a condition on a process that keeps a journal. A
condition that does not depend on what a capture works with is `Stable`: it holds up to the point
where a body is staged, through calls that keep it, and there is nothing else that a capture does
(`yields_captureBody`). A run ends, and is entered in the journal (`run_journaled`).

Conditions are put on processes that keep a journal, so that they can speak of the runs so far.
`Stable` is what such a condition has to satisfy to survive the steps of a capture: it may depend on
the books of the recorder, on the callback and on the journal, and on nothing else that a capture
changes.
-/

namespace CilCapture.Capture

open Engine Compile Body

/-- The process with the journal of a recorder. -/
abbrev Journaled (M W : Type) := Process (Recorder × List (Interception Recorder)) (Workspace M W)

variable {M W α β : Type}

/-! ## Steps of a capture -/

/-- What a response comes to beside a journal, from where a condition holds. It does not break
down. -/
def Yields (enter : CompileCall → Journaled M W → Int32 × Journaled M W)
    (sift : CompileEvent → Journaled M W → FilterOutcome × Journaled M W)
    (before : Journaled M W → Prop) (response : Response Recorder (Workspace M W) α)
    (after : α → Journaled M W → Prop) : Prop :=
  ∀ process, before process →
    ∃ value final, response.beside.run enter sift process = (some value, final) ∧ after value final

/-- A step of a capture that preserves a condition, whether it fails or not. -/
def Preserves (enter : CompileCall → Journaled M W → Int32 × Journaled M W)
    (sift : CompileEvent → Journaled M W → FilterOutcome × Journaled M W)
    (holds : Journaled M W → Prop) (step : CaptureStep M W α) : Prop :=
  Yields enter sift holds step.run fun _ => holds

section

variable {enter : CompileCall → Journaled M W → Int32 × Journaled M W}
variable {sift : CompileEvent → Journaled M W → FilterOutcome × Journaled M W}
variable {holds : Journaled M W → Prop}

/-- A response that has ended yields its value. -/
theorem yields_finish {after : α → Journaled M W → Prop} {value : α}
    (there : ∀ process, holds process → after value process) :
    Yields enter sift holds (.finish value) after :=
  fun process here => ⟨value, process, rfl, there process here⟩

/-- Responses yield one after the other, from the condition in between. -/
theorem yields_andThen {response : Response Recorder (Workspace M W) α}
    {next : α → Response Recorder (Workspace M W) β} {between : α → Journaled M W → Prop}
    {after : β → Journaled M W → Prop} (first : Yields enter sift holds response between)
    (second : ∀ value, Yields enter sift (between value) (next value) after) :
    Yields enter sift holds (response.andThen next) after := by
  intro process here
  obtain ⟨value, middle, ran, there⟩ := first process here
  obtain ⟨result, final, ran', done⟩ := second value middle there
  refine ⟨result, final, ?_, done⟩
  rw [beside_andThen, run_andThen, ran]
  exact ran'

/-- A step that does nothing preserves every condition. -/
theorem preserves_pure (value : α) :
    Preserves enter sift holds (pure value : CaptureStep M W α) :=
  yields_finish fun _ here => here

/-- A step that only fails preserves every condition. -/
theorem preserves_throw (abort : Abort) :
    Preserves enter sift holds (throw abort : CaptureStep M W α) :=
  yields_finish fun _ here => here

/-- What two steps preserve, their sequence preserves, wherever it stops. -/
theorem preserves_bind {step : CaptureStep M W α} {next : α → CaptureStep M W β}
    (first : Preserves enter sift holds step)
    (second : ∀ value, Preserves enter sift holds (next value)) :
    Preserves enter sift holds (step >>= next) := by
  refine yields_andThen first fun result => ?_
  cases result with
  | ok value => exact second value
  | error abort => exact yields_finish fun _ here => here

/-- Looking at the recorder and the workspace preserves every condition. -/
theorem preserves_current : Preserves enter sift holds (current (M := M) (W := W)) :=
  fun process here => ⟨_, process, rfl, here⟩

/-- A step that preserves a condition and gives values of a kind. -/
theorem Preserves.gives {P : α → Prop} {step : CaptureStep M W α}
    (preserves : Preserves enter sift holds step) (gives : Gives P step) :
    Yields enter sift holds step.run fun result process =>
      holds process ∧ ∀ value, result = .ok value → P value := by
  intro process here
  obtain ⟨result, final, ran, there⟩ := preserves process here
  refine ⟨result, final, ran, there, ?_⟩
  exact (Response.Only.beside gives).run (congrArg Prod.fst ran)

end

/-! ## Conditions that a capture does not touch -/

/-- What is told of a recorder from outside. -/
structure Books where
  targetRow : Option Nat
  count : Nat
  records : List CaptureRecord
  staged : Option StagedBody

namespace Recorder

def books (recorder : Recorder) : Books where
  targetRow := recorder.targetRow
  count := recorder.count
  records := recorder.records
  staged := recorder.staged

end Recorder

/-- A condition for which it makes no difference what a capture works with, in workspaces that are
what they have to be. -/
structure Stable (allowed : Workspace M W → Prop) (holds : Journaled M W → Prop) : Prop where
  here : ∀ {process}, holds process → allowed process.world
  withWorld : ∀ {process}, holds process → ∀ {workspace}, allowed workspace →
    holds { process with world := workspace }
  withRecorder : ∀ {process}, holds process → ∀ {recorder : Recorder},
    recorder.books = process.client.1.books →
    holds { process with client := (recorder, process.client.2) }
  report : ∀ {process}, holds process → ∀ notices, holds (process.report notices)

section

variable {allowed : Workspace M W → Prop} {holds : Journaled M W → Prop}
variable {enter : CompileCall → Journaled M W → Int32 × Journaled M W}
variable {sift : CompileEvent → Journaled M W → FilterOutcome × Journaled M W}

/-- A change of the recorder that does not show in its books preserves a stable condition. -/
theorem preserves_onRecorder (stable : Stable allowed holds) {change : Recorder → Recorder}
    (same : ∀ recorder, (change recorder).books = recorder.books) :
    Preserves enter sift holds (onRecorder (M := M) (W := W) change) :=
  fun _ here => ⟨_, _, rfl, stable.withRecorder here (same _)⟩

/-- Reporting preserves a stable condition. -/
theorem preserves_reporting (stable : Stable allowed holds) (notices : List Notice) :
    Preserves enter sift holds (reporting (M := M) (W := W) notices) := by
  have reported (notices : List Notice) :
      Yields enter sift holds
        (notices.foldr .report (.finish ()) : Response Recorder (Workspace M W) Unit)
        fun _ => holds := by
    induction notices with
    | nil => exact yields_finish fun _ here => here
    | cons notice rest ih => exact fun process here => ih _ (stable.report here [notice])
  exact yields_andThen (reported notices) fun _ => yields_finish fun _ here => here

/-- An errand that stores allowed workspaces makes no difference, if no call does. -/
theorem preserves_onWorkspace (stable : Stable allowed holds)
    (enters : ∀ call process, holds process → holds (enter call process).2)
    {errand : Errand Abort (Workspace M W) α} (keeps : errand.Keeps allowed) :
    Preserves enter sift holds (onWorkspace errand) := by
  change Yields enter sift _ (Response.ofErrand errand) _
  induction errand with
  | done result => exact yields_finish fun _ here => here
  | observe next ih =>
    exact fun process here => ih _ (keeps _ (stable.here here)) process here
  | store workspace next ih =>
    exact fun process here => ih keeps.2 _ (stable.withWorld here keeps.1)
  | compile call next ih =>
    exact fun process here => ih _ (keeps _) _ (enters call process here)

variable [NativeCode W] [CodeSpace W] {rules : CaptureRules M W}

/-- Whatever a capture does before it deposits a body preserves a stable condition. -/
theorem closed_preserves (stable : Stable allowed holds) (placing : PlacingKeeps allowed)
    (native : NativeKeeps allowed)
    (enters : ∀ call process, holds process → holds (enter call process).2)
    (answers : ∀ opcode token, (rules.resolver opcode token).Keeps allowed) (jitInfo : Address) :
    Closed rules rules jitInfo fun _ step _ => Preserves enter sift holds step where
  pure := preserves_pure
  throw := preserves_throw
  bind := preserves_bind
  begins := preserves_onRecorder stable fun _ => rfl
  reporting := preserves_reporting stable
  clauses := by
    refine captureClauses_inherits preserves_pure preserves_bind preserves_current
      (fun _ => preserves_onRecorder stable fun _ => rfl)
      (preserves_onWorkspace stable enters
        (Errand.keeps_ofStep (keeps_faulting (keeps_locate placing _ _ _)))) ?_
    intro reader method count
    refine preserves_onWorkspace stable enters (Errand.keeps_ofStep fun workspace here => ?_)
    exact holds_readFrom native reader _ method count 0 here
  resolve := fun opcode token => preserves_onWorkspace stable enters (answers opcode token)

/-! ## Captures -/

/-- What a capture comes to: it fails with nothing staged, or it has staged a body that was gathered
from its event. -/
def Captured (holds : Journaled M W → Prop) (row : Nat) (event : CompileEvent)
    (result : Except Abort Unit) (process : Journaled M W) : Prop :=
  match result with
  | .error _ => holds process
  | .ok () => ∃ (before : Journaled M W) (gathered : CompileRequest × MethodBody),
      holds before ∧ before.world.output.isSome ∧ GatheredFrom event gathered ∧
      process = { before with
        client := (before.client.1.stage row gathered.1.code gathered.2, before.client.2) }

/-- Staging is the last thing that a capture does. -/
theorem yields_captureBody (stable : Stable allowed holds) (placing : PlacingKeeps allowed)
    (native : NativeKeeps allowed)
    (enters : ∀ call process, holds process → holds (enter call process).2)
    (answers : ∀ opcode token, (rules.resolver opcode token).Keeps allowed) (row : Nat)
    (event : CompileEvent) :
    Yields enter sift holds (captureBody rules row event).run (Captured holds row event) := by
  rw [captureBody_eq]
  have gathering : Preserves enter sift holds (gather rules row event) :=
    (closed_preserves stable placing native enters answers event.jitInfo).gather row
  refine yields_andThen (gathering.gives (gives_gather rules row event)) fun result => ?_
  cases result with
  | error abort => exact yields_finish fun process ⟨here, _⟩ => here
  | ok gathered =>
    have looked : Yields enter sift
        (fun process => holds process ∧ ∀ value, (Except.ok gathered : Except Abort _) = .ok value →
          GatheredFrom event value)
        (current (M := M) (W := W)).run fun result process =>
          (holds process ∧ GatheredFrom event gathered) ∧
            result = .ok (process.client.1, process.world) :=
      fun process ⟨here, from_event⟩ => ⟨_, process, rfl, ⟨here, from_event _ rfl⟩, rfl⟩
    refine yields_andThen looked fun result => ?_
    rintro process ⟨⟨here, from_event⟩, rfl⟩
    -- What follows the look at the output module neither fails nor calls anything.
    cases present : process.world.output.isNone with
    | true =>
      refine ⟨.error (.fault .noOutputModule), process, ?_, here⟩
      simp only [ExceptT.bindCont, present]
      rfl
    | false =>
      refine ⟨.ok (), _, ?_, process, gathered, here, ?_, from_event, rfl⟩
      · simp only [ExceptT.bindCont, present]
        rfl
      · rw [← Option.not_isNone, present]
        rfl

/-! ## Runs of the callback -/

/-- The process with a run entered in its journal. -/
def entered (event : CompileEvent) (verdict : Verdict) (process : Journaled M W) :
    Journaled M W :=
  { process with client :=
      (process.client.1, process.client.2 ++ [⟨event, verdict, process.client.1⟩]) }

/-- A run of an armed recorder ends with the verdict that its capture comes to. -/
theorem run_journaled (stable : Stable allowed holds) (placing : PlacingKeeps allowed)
    (native : NativeKeeps allowed)
    (enters : ∀ call process, holds process → holds (enter call process).2)
    (answers : ∀ opcode token, (rules.resolver opcode token).Keeps allowed) {row : Nat}
    {process : Journaled M W} (armed : process.client.1.targetRow = some row)
    (here : holds process) (event : CompileEvent) :
    ∃ result middle, (Callback.journaled (record rules) event).run enter sift process =
        (some (captureVerdict result), entered event (captureVerdict result) middle) ∧
      Captured holds row event result middle := by
  have captures : Yields enter sift holds (captureBody rules row event).run
      (Captured holds row event) :=
    yields_captureBody stable placing native enters answers row event
  obtain ⟨result, middle, ran, captured⟩ := captures process here
  refine ⟨result, middle, ?_, captured⟩
  have mapped : captureVerdict <$> (captureBody rules row event).run =
    (captureBody rules row event).run.andThen fun result => .finish (captureVerdict result) := rfl
  rw [Callback.journaled, run_andThen, record, Response.beside, Response.run]
  dsimp only
  rw [armed]
  dsimp only
  rw [mapped, beside_andThen, run_andThen, ran]
  rfl

end

end CilCapture.Capture
