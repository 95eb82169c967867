import CilCapture.Proofs.Capture.Steps
import CilCapture.Proofs.Capture.Workspace

/-!
# What a recorder keeps of the world

A recorder stores no world of its own: a condition on the workspace that the engine and the
strategy's resolver keep is kept by every run of the callback (`keeps_record`). A condition on the
world is one on the workspace (`Behind`).

The proof is the one for all properties of capture steps, `Closed.gather`, with keeping the
condition as the property. What remains is that each elementary step keeps it; the only ones that
could do otherwise are those that call outwards.
-/

namespace CilCapture.Capture

open Engine Compile Body

variable {M W α ε : Type}

/-! ## Conditions on the world -/

/-- A workspace in whose world a condition holds. -/
def Behind (holds : W → Prop) (workspace : Workspace M W) : Prop := holds workspace.world

section

variable {holds : W → Prop}

/-- A step that keeps a condition of the world keeps it of the workspace around it. -/
theorem behind_onWorld {step : EStateM Fault W α} (keeps : Keeps holds step) :
    Keeps (Behind holds) (Workspace.onWorld (M := M) step) := by
  intro workspace here
  have there := keeps workspace.world here
  unfold Workspace.onWorld
  cases taken : step workspace.world <;> rw [taken] at there <;> exact there

/-- A routine that keeps a condition of the world keeps it of the workspace around it. -/
theorem behind_lift {routine : Routine W α} (keeps : routine.Keeps holds) :
    (Workspace.lift (M := M) routine).Keeps (Behind holds) := by
  induction routine with
  | done result => trivial
  | observe next ih => exact fun workspace here => ih _ (keeps _ here)
  | store world next ih => exact fun workspace _ => ⟨keeps.1, ih keeps.2⟩
  | compile call next ih => exact fun result => ih _ (keeps result)

theorem behind_placing [CodeSpace W] (placing : PlacingKeeps holds) :
    PlacingKeeps (Behind (M := M) holds) :=
  fun code => behind_onWorld (placing code)

theorem behind_native [NativeCode W] (native : NativeKeeps holds) :
    NativeKeeps (Behind (M := M) holds) :=
  ⟨fun here => native.compile here, fun here => native.clauseInfo here⟩

/-- Answers of the engine keep a condition of the world in a workspace as well. -/
theorem behind_answering [Introspection W] (answering : AnsweringKeeps holds) :
    AnsweringKeeps (Behind (M := M) holds) :=
  ⟨fun method => behind_onWorld (answering.isValueTypeMember method),
    fun method => behind_onWorld (answering.instantiatingStub method),
    fun method => behind_onWorld (answering.unboxingStub method)⟩

end

/-! ## Runs of the callback -/

variable {holds : Workspace M W → Prop}

/-- An errand that keeps a condition keeps it as a part of a callback. -/
theorem keeps_ofErrand {C : Type} {errand : Errand ε (Workspace M W) α}
    (keeps : errand.Keeps holds) :
    (Response.ofErrand errand : Response C (Workspace M W) (Except ε α)).Keeps holds := by
  induction errand with
  | done result => trivial
  | observe next ih => exact fun _ workspace here => ih _ (keeps workspace here)
  | store workspace next ih => exact fun _ _ _ => ⟨keeps.1, ih keeps.2⟩
  | compile call next ih => exact fun result => ih _ (keeps result)

/-- What two steps of a capture keep, their sequence keeps. -/
theorem keeps_bind {β : Type} {step : CaptureStep M W α} {next : α → CaptureStep M W β}
    (first : step.run.Keeps holds) (second : ∀ value, (next value).run.Keeps holds) :
    (step >>= next).run.Keeps holds := by
  refine Response.Keeps.andThen first fun result => ?_
  cases result with
  | ok value => exact second value
  | error abort => trivial

/-- The recorder is not part of the workspace. -/
theorem keeps_onRecorder (change : Recorder → Recorder) :
    (onRecorder (M := M) (W := W) change).run.Keeps holds :=
  fun _ _ here => ⟨here, trivial⟩

/-- The log is not part of the workspace. -/
theorem keeps_reporting (notices : List Notice) :
    (reporting (M := M) (W := W) notices).run.Keeps holds := by
  have reported : (notices.foldr .report (.finish ()) :
      Response Recorder (Workspace M W) Unit).Keeps holds := by
    induction notices with
    | nil => trivial
    | cons notice rest ih => exact ih
  exact reported.andThen fun _ => trivial

section

variable [NativeCode W] [CodeSpace W] {rules : CaptureRules M W}

/-- Keeping a condition passes through all that captures are made of, so it is enough that the
placing of code, native calls and the resolver keep it. -/
theorem closed_keeps (placing : PlacingKeeps holds) (native : NativeKeeps holds)
    (answers : ∀ opcode token, (rules.resolver opcode token).Keeps holds) (jitInfo : Address) :
    Closed rules rules jitInfo fun _ step _ => step.run.Keeps holds where
  pure := fun _ => trivial
  throw := fun _ => trivial
  bind := keeps_bind
  begins := keeps_onRecorder _
  reporting := keeps_reporting
  clauses := by
    have inherits := @captureClauses_inherits M W _ _ rules jitInfo fun _ step =>
      step.run.Keeps holds
    refine inherits (fun _ => trivial) keeps_bind (fun _ _ _ => trivial)
      (fun _ => keeps_onRecorder _)
      (keeps_ofErrand (Errand.keeps_ofStep (keeps_faulting (keeps_locate placing _ _ _)))) ?_
    intro reader method count
    refine keeps_ofErrand (Errand.keeps_ofStep fun workspace here => ?_)
    exact holds_readFrom native reader _ method count 0 here
  resolve := fun opcode token => keeps_ofErrand (answers opcode token)

/-- Whatever a run of the callback comes to, it keeps what the engine and the resolver keep. -/
theorem keeps_record (placing : PlacingKeeps holds) (native : NativeKeeps holds)
    (answers : ∀ opcode token, (rules.resolver opcode token).Keeps holds) (event : CompileEvent) :
    (record rules event).Keeps holds := by
  have captured (row : Nat) : (captureBody rules row event).run.Keeps holds := by
    rw [captureBody_eq]
    refine keeps_bind ((closed_keeps placing native answers _).gather row) fun gathered => ?_
    refine keeps_bind (fun _ _ _ => trivial) fun state => ?_
    split
    next => trivial
    next => exact keeps_onRecorder _
  intro recorder workspace here
  dsimp only
  cases recorder.targetRow with
  | none => trivial
  | some row => exact Response.Keeps.andThen (captured row) fun _ => trivial

end

end CilCapture.Capture
