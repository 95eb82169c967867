import CilCapture.Proofs.Sweep.CaptureRow

/-!
# Row after row

No row finds anything that the row before has left: a sweep is at rest and records before each one
(`countRow_step`), so what was said of one row holds of all. In the end the output module is what
it becomes by the bodies of the captured rows, one after the other, and of no other row
(`countRows_installs`).

The induction on rows carries the output module along: each row that is captured installs one body,
and the other classes of rows install none (`Installs`). The strategy is asked to leave the module
to the session while rows are captured, and the module to be as it was when it refuses a body.
-/

namespace CilCapture.Sweep

open Capture Compile Memory

variable {M W : Type}

/-- Capturing a row leaves what is steady as it is, such as the wiring. -/
theorem look_captureRow [ModuleStore M W] [Engine.Introspection W] [NativeCode W] {β : Type}
    {look : Process Recorder (Workspace M W) → β} (steady : Steady look) (plan : Plan M W)
    (row : Nat) {state : SweepState M W} (rest : AtRest state.session) :
    look (finalState (plan.captureRow row state)).session.process = look state.session.process := by
  have only_workspace (state : SweepState M W) (workspace : Workspace M W) :
      look (state.withWorkspace workspace).session.process = look state.session.process :=
    steady.worked state.session.process _ _ _ _ _ _
  have after_rest (session : Session M W) : look (rested session).process = look session.process :=
    steady.worked session.process _ _ _ _ 0 none
  obtain ⟨workspace, left | ⟨handle, before, -, left⟩⟩ := captureRow_final plan row rest
  · rw [left, only_workspace]
  · rw [left, only_workspace, after_rest, look_perform steady]
    exact steady.worked state.session.process _ _ _ _ handle _

/-! ## Runs -/

variable [ModuleStore M W]

/-- A sweep that is ready for its next row. -/
structure Ready [NativeCode W] [Engine.CodeSpace W] (plan : Plan M W) (state : SweepState M W) :
    Prop where
  rest : AtRest state.session
  records : Records plan state.session

/-- The output module after the bodies of some rows were stored in it, one after the other. -/
inductive Installs : List StagedBody → Option M → Option M → Prop
  | nil (output : Option M) : Installs [] output output
  | cons {row : Nat} {body : Body.MethodBody} {bodies : List StagedBody} {output final : Option M}
      {after : M} (accepts : Accepts output row body after)
      (rest : Installs bodies (some after) final) : Installs (⟨row, body⟩ :: bodies) output final

variable [Engine.Introspection W] [NativeCode W] [Engine.CodeSpace W] {plan : Plan M W}

/-- A row leaves the sweep ready for the next one, with a body more or with nothing changed. -/
theorem countRow_step (keeps : plan.strategy.KeepsOutput plan.context) (atomic : ReplacesOrKeeps M)
    (row : Nat) (summary : Summary) {state : SweepState M W} (ready : Ready plan state) :
    Ready plan (plan.countRow row summary state).2 ∧
      ((∃ body after, Accepts state.output row body after ∧
          (plan.countRow row summary state).2.output = some after ∧
          (plan.countRow row summary state).1.captured = summary.captured + 1) ∨
        (plan.countRow row summary state).2.output = state.output ∧
          (plan.countRow row summary state).1.captured = summary.captured) := by
  obtain ⟨rest, ended⟩ := captureRow_spec keeps atomic row state ready.records ready.rest
  have records := ready.records.of_wiring (look_captureRow steady_wiring plan row ready.rest)
  unfold Plan.countRow
  rcases ended with ⟨body, after, final, -, accepts, captured, left⟩ | ⟨-, missed, left⟩
  · rw [captured] at rest records ⊢
    exact ⟨⟨rest, records⟩, .inl ⟨body, after, accepts, left, rfl⟩⟩
  · cases captured : plan.captureRow row state with
    | ok counted final =>
      rw [captured] at rest records left
      cases counted with
      | false => exact ⟨⟨rest, records⟩, .inr ⟨left, rfl⟩⟩
      | true => exact absurd captured (missed final)
    | error cause final =>
      rw [captured] at rest records left
      exact ⟨⟨⟨rest.method_eq, rest.row_eq, rest.staged_eq, rest.stashed_eq⟩, records⟩,
        .inr ⟨left, rfl⟩⟩

/-- Rows that are captured one after the other leave in the output module one body for each that
was counted as captured, stored in their order, and nothing else. -/
theorem countRows_installs (keeps : plan.strategy.KeepsOutput plan.context)
    (atomic : ReplacesOrKeeps M) (rows : List Nat) (summary : Summary) {state : SweepState M W}
    (ready : Ready plan state) :
    Ready plan (plan.countRows rows summary state).2 ∧
      ∃ bodies, Installs bodies state.output (plan.countRows rows summary state).2.output ∧
        (bodies.map (·.row)).Sublist rows ∧
        (plan.countRows rows summary state).1.captured = summary.captured + bodies.length := by
  induction rows generalizing summary state with
  | nil => exact ⟨ready, [], .nil _, .slnil, rfl⟩
  | cons row rows ih =>
    obtain ⟨ready', step⟩ := countRow_step keeps atomic row summary ready
    obtain ⟨ready'', bodies, installs, sublist, counted⟩ :=
      ih (plan.countRow row summary state).1 ready'
    refine ⟨ready'', ?_⟩
    rcases step with ⟨body, after, accepts, left, one⟩ | ⟨left, none⟩
    · rw [left] at installs
      refine ⟨⟨row, body⟩ :: bodies, .cons accepts installs, sublist.cons_cons row, ?_⟩
      rw [Plan.countRows, counted, one, List.length_cons]
      omega
    · rw [left] at installs
      refine ⟨bodies, installs, sublist.cons row, ?_⟩
      rw [Plan.countRows, counted, none]

end CilCapture.Sweep
