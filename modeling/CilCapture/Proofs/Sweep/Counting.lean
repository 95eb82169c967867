import CilCapture.Proofs.Capture.Tally
import CilCapture.Proofs.Sweep.Rows

/-!
# How rows are counted

Each row of a sweep is of one class, by how its capture ends, and the summary counts the rows of
each class (`countRows_eq`). A row that counts as captured was captured (`captures_of_ok`): one run
of the callback claimed its call while the row was armed, and the output module took the body that
this run had staged. A failure is recorded for the row that failed and for no other
(`failures_countRow`).

Rows are counted from one on, so the sweep after so many rows is defined by going through the first
of them (`Plan.past`), and facts about all rows are inductions on how many are done. The summary is
not part of the state, so what a row does does not depend on how far the count has come
(`countRow_snd`).
-/

namespace CilCapture.Sweep

open Body Capture Compile

variable {M W : Type}

/-! ## Classes -/

inductive RowClass where
  | captured
  | failed
  /-- The method has no handle, or it is left alone. -/
  | skipped
  deriving DecidableEq, Repr

/-- How a row is counted, by what its capture comes to. -/
def RowClass.ofResult : Except Fault Bool → RowClass
  | .ok true => captured
  | .ok false => skipped
  | .error _ => failed

/-- A row counts as captured for one result only. -/
theorem RowClass.eq_of_captured {result : Except Fault Bool}
    (captured : ofResult result = captured) :
    result = .ok true := by
  rcases result with _ | _ | _
  · cases captured
  · cases captured
  · rfl

/-- The summary with another row in it. -/
def Summary.count (summary : Summary) : RowClass → Summary
  | .captured => { summary with captured := summary.captured + 1 }
  | .failed => { summary with failed := summary.failed + 1 }
  | .skipped => { summary with skipped := summary.skipped + 1 }

section

variable [ModuleStore M W]

/-- A body is taken just when it is staged and one capture was counted. -/
theorem stagedOnce_eq_ok {staged : Option StagedBody} {count : Nat} {body : StagedBody}
    (once : Plan.stagedOnce staged count = .ok body) : staged = some body ∧ count = 1 := by
  unfold Plan.stagedOnce at once
  cases staged with
  | none => cases once
  | some found =>
    dsimp only at once
    split at once
    next single =>
      cases once
      exact ⟨rfl, single⟩
    next => cases once

/-- A body that was installed was accepted by the output module. -/
theorem accepts_of_install {row : Nat} {body : MethodBody} {state final : SweepState M W}
    (installed : onSession (Session.install row body) state = .ok () final) :
    ∃ after, Accepts state.output row body after ∧ final.output = some after := by
  unfold onSession Session.install at installed
  cases output_eq : state.session.process.world.output with
  | none =>
    rw [output_eq] at installed
    cases installed
  | some module_ =>
    rw [output_eq] at installed
    dsimp only at installed
    cases replaced : ModuleStore.replaceBody row body module_ with
    | error fault after =>
      rw [replaced] at installed
      cases installed
    | ok done after =>
      rw [replaced] at installed
      cases installed
      exact ⟨after, ⟨module_, output_eq, replaced⟩, rfl⟩

/-- A row is settled with success only if its compilation succeeded, with one capture, and the
output module took the staged body. -/
theorem of_settleCapture_ok {before : Nat} {compiled : Except Fault Unit}
    {state final : SweepState M W} (settled : settleCapture before compiled state = .ok () final) :
    compiled = .ok () ∧ ∃ staged after, state.session.process.client.staged = some staged ∧
      state.captures - before = 1 ∧ Accepts state.output staged.row staged.body after ∧
      final.output = some after := by
  rw [settleCapture_eq] at settled
  dsimp only at settled
  split at settled
  next => cases settled
  next =>
    split at settled
    next => cases settled
    next =>
      split at settled
      next => cases settled
      next staged once =>
        obtain ⟨staged_eq, single⟩ := stagedOnce_eq_ok once
        obtain ⟨after, accepts, left⟩ := accepts_of_install settled
        exact ⟨rfl, staged, after, staged_eq, single, accepts, left⟩

end

section

variable [ModuleStore M W] [Engine.Introspection W] [NativeCode W]

namespace Plan

/-- The sweep from `start` when that many rows are done. -/
def past (plan : Plan M W) (start : SweepState M W) (rows : Nat) : SweepState M W :=
  (plan.countRows (List.range' 1 rows) .empty start).2

/-- How a row is counted in the sweep from `start`. -/
def classOf (plan : Plan M W) (start : SweepState M W) (row : Nat) : RowClass :=
  .ofResult (resultOf (plan.captureRow row (plan.past start (row - 1))))

/-- The rows of a class among the first rows. -/
def tally (plan : Plan M W) (start : SweepState M W) (rows : Nat) (kind : RowClass) : Nat :=
  (List.range' 1 rows).countP fun row => plan.classOf start row = kind

end Plan

/-- What a row adds to the summary is its class. -/
theorem countRow_fst (plan : Plan M W) (row : Nat) (summary : Summary) (state : SweepState M W) :
    (plan.countRow row summary state).1 =
      summary.count (.ofResult (resultOf (plan.captureRow row state))) := by
  unfold Plan.countRow
  rcases plan.captureRow row state with ⟨_ | _, final⟩ | ⟨cause, final⟩ <;> rfl

/-- How far the count has come makes no difference to the sweep itself. -/
theorem countRow_snd (plan : Plan M W) (row : Nat) (summary : Summary) (state : SweepState M W) :
    (plan.countRow row summary state).2 = (plan.countRow row .empty state).2 := by
  unfold Plan.countRow
  rcases plan.captureRow row state with ⟨_ | _, final⟩ | ⟨cause, final⟩ <;> rfl

/-- The last row comes after the others. -/
theorem countRows_concat (plan : Plan M W) (rows : List Nat) (row : Nat) (summary : Summary)
    (state : SweepState M W) :
    plan.countRows (rows ++ [row]) summary state =
      plan.countRow row (plan.countRows rows summary state).1
        (plan.countRows rows summary state).2 := by
  induction rows generalizing summary state with
  | nil => rfl
  | cons first rows ih => exact ih _ _

/-- One row further, the sweep has gone through that row. -/
theorem past_succ (plan : Plan M W) (start : SweepState M W) (rows : Nat) :
    plan.past start (rows + 1) = (plan.countRow (rows + 1) .empty (plan.past start rows)).2 := by
  unfold Plan.past
  rw [List.range'_1_concat, countRows_concat, countRow_snd, Nat.add_comm 1 rows]

/-- One row further, its class has one more. -/
theorem tally_succ (plan : Plan M W) (start : SweepState M W) (rows : Nat) (kind : RowClass) :
    plan.tally start (rows + 1) kind =
      plan.tally start rows kind + if plan.classOf start (rows + 1) = kind then 1 else 0 := by
  unfold Plan.tally
  rw [List.range'_1_concat, List.countP_append, List.countP_singleton, Nat.add_comm 1 rows]
  simp

/-- The summary counts the rows by their classes. -/
theorem countRows_eq (plan : Plan M W) (start : SweepState M W) (rows : Nat) :
    plan.countRows (List.range' 1 rows) .empty start =
      ({ captured := plan.tally start rows .captured
         failed := plan.tally start rows .failed
         skipped := plan.tally start rows .skipped
         output := none }, plan.past start rows) := by
  refine Prod.ext ?_ rfl
  induction rows with
  | zero => rfl
  | succ rows ih =>
    have arrived : (plan.countRows (List.range' 1 rows) .empty start).2 =
      plan.past start rows := rfl
    have class_eq :
        RowClass.ofResult (resultOf (plan.captureRow (rows + 1) (plan.past start rows))) =
          plan.classOf start (rows + 1) := rfl
    rw [List.range'_1_concat, Nat.add_comm 1 rows, countRows_concat, countRow_fst, ih, arrived,
      class_eq]
    simp only [tally_succ]
    cases plan.classOf start (rows + 1) <;> simp [Summary.count]

/-- Every row is of a class. -/
theorem tally_add (plan : Plan M W) (start : SweepState M W) (rows : Nat) :
    plan.tally start rows .captured + plan.tally start rows .failed +
      plan.tally start rows .skipped = rows := by
  induction rows with
  | zero => rfl
  | succ rows ih =>
    simp only [tally_succ]
    cases plan.classOf start (rows + 1) <;> simp <;> omega

/-! ## What is left of a row -/

/-- Counting a row changes nothing but records and notices. -/
theorem countRow_final (plan : Plan M W) (row : Nat) (summary : Summary) (state : SweepState M W) :
    ∃ records notices, (plan.countRow row summary state).2 =
      { finalState (plan.captureRow row state) with
        session.process.client.records := records
        session.process.notices := notices } := by
  unfold Plan.countRow
  rcases plan.captureRow row state with ⟨_ | _, final⟩ | ⟨cause, final⟩ <;> exact ⟨_, _, rfl⟩

/-- Counting a row changes the workspace as capturing it does. -/
theorem world_past_succ (plan : Plan M W) (start : SweepState M W) (rows : Nat) :
    (plan.past start (rows + 1)).session.process.world =
      (finalState (plan.captureRow (rows + 1) (plan.past start rows))).session.process.world := by
  obtain ⟨records, notices, final_eq⟩ :=
    countRow_final plan (rows + 1) .empty (plan.past start rows)
  rw [past_succ, final_eq]

variable [Engine.CodeSpace W] {rules : CaptureRules M W} {row : Nat} {state : SweepState M W}

/-- Capturing a row makes no record of a failure by itself. -/
theorem failures_captureRow (plan : Plan M W) (row other : Nat)
    (callback_eq : state.session.process.filter.callback = some (record rules))
    (rest : AtRest state.session) :
    failures other (finalState (plan.captureRow row state)).session.process.client.records =
      failures other state.session.process.client.records := by
  obtain ⟨workspace, left | ⟨handle, before, -, left⟩⟩ := captureRow_final plan row rest
  · rw [left]
    rfl
  · have told := tallies_perform (plan.strategy.forceCompile plan.context handle)
      ((state.withWorkspace before).session.arm row handle).process callback_eq
    rw [left]
    exact told.failures_eq other

/-- A failure is recorded for the row that failed, and for no other. -/
theorem failures_countRow (plan : Plan M W) (row other : Nat) (summary : Summary)
    (callback_eq : state.session.process.filter.callback = some (record rules))
    (rest : AtRest state.session) :
    failures other (plan.countRow row summary state).2.session.process.client.records =
      failures other state.session.process.client.records +
        if other = row ∧ RowClass.ofResult (resultOf (plan.captureRow row state)) = .failed then 1
        else 0 := by
  have kept := failures_captureRow plan row other callback_eq rest
  rw [← kept]
  unfold Plan.countRow
  rcases plan.captureRow row state with ⟨_ | _, final⟩ | ⟨cause, final⟩
  · simp [RowClass.ofResult, resultOf, finalState]
  · simp [RowClass.ofResult, resultOf, finalState]
  · change failures other (final.session.process.client.records ++ [_]) =
      failures other final.session.process.client.records + _
    unfold failures
    rw [List.countP_append, List.countP_singleton]
    simp [RowClass.ofResult, resultOf, @eq_comm _ other]

/-! ## Captured rows -/

/-- A body that was captured for a row: while the row was armed its method was compiled with
success, one run of the callback claimed its call, and what this run had gathered from its event is
the body that it left staged. -/
def Captures (plan : Plan M W) (row : Nat) (state : SweepState M W) (body : MethodBody)
    (compiled : Process Recorder (Workspace M W)) : Prop :=
  ∃ handle needed, Approaches plan row state handle needed ∧
    let armed := (needed.session.arm row handle).process
    let compile := plan.strategy.forceCompile plan.context handle
    Process.perform compile armed = .ok () compiled ∧
      ∃ run request, claims (armed.interceptions compile) = [run] ∧
        GatheredFrom run.event (request, body) ∧ run.client.staged = some ⟨row, body⟩

/-- A row that was captured once it was armed counts a single claim, whose body was taken. -/
theorem captures_of_captureArmed {plan : Plan M W} {handle : Handle} {needed final : SweepState M W}
    (approaches : Approaches plan row state handle needed)
    (callback_eq : needed.session.process.filter.callback = some (record rules))
    (ended : plan.captureArmed row handle needed = .ok () final) :
    ∃ body compiled after, Captures plan row state body compiled ∧
      Accepts compiled.world.output row body after ∧ final.output = some after := by
  let armed := (needed.session.arm row handle).process
  let compile := plan.strategy.forceCompile plan.context handle
  have told := tallies_perform compile armed callback_eq
  rw [captureArmed_eq] at ended
  cases performed : Process.perform compile armed with
  | error cause process =>
    rw [performed] at ended
    obtain ⟨impossible, -⟩ := of_settleCapture_ok ended
    cases impossible
  | ok done process =>
    rw [performed] at ended told
    obtain ⟨-, staged, after, staged_eq, single, accepts, left⟩ := of_settleCapture_ok ended
    -- One more than when the row was armed, so one run claimed its call.
    have counted : process.client.count =
      needed.captures + (claims (armed.interceptions compile)).length := told.count_eq
    have one : (claims (armed.interceptions compile)).length = 1 := by
      have single : process.client.count - needed.captures = 1 := single
      omega
    obtain ⟨run, runs_eq⟩ := List.length_eq_one_iff.mp one
    rcases told.staged_eq with ⟨none_last, -⟩ |
      ⟨last, row', request, body, last_eq, armed_row, gathered, run_staged, kept⟩
    · rw [runs_eq] at none_last
      cases none_last
    · rw [runs_eq] at last_eq
      cases last_eq
      cases armed_row
      cases staged_eq.symm.trans (kept.trans run_staged)
      exact ⟨body, process, after,
        ⟨handle, needed, approaches, performed, run, request, runs_eq, gathered, run_staged⟩,
        accepts, left⟩

/-- A row that counts as captured was captured, and the output module took its body. -/
theorem captures_of_ok {plan : Plan M W}
    (callback_eq : state.session.process.filter.callback = some (record rules))
    (rest : AtRest state.session) {final : SweepState M W}
    (captured : plan.captureRow row state = .ok true final) :
    ∃ body compiled after, Captures plan row state body compiled ∧
      Accepts compiled.world.output row body after ∧ final.output = some after := by
  rcases captureRow_cases plan row ⟨fun _ _ _ => trivial, fun _ _ _ _ _ => trivial⟩
      (Errand.keeps_true _) (Errand.keeps_true _) rest trivial with
    ⟨handle, before, approaches, -, captured_eq⟩ | ⟨-, missed, -⟩
  · rw [captured_eq] at captured
    refine captures_of_captureArmed approaches callback_eq ?_
    cases ended : plan.captureArmed row handle (state.withWorkspace before) with
    | ok done last =>
      rw [ended] at captured
      cases captured
      rfl
    | error cause last =>
      rw [ended] at captured
      cases captured
  · exact absurd captured (missed final)

end

end CilCapture.Sweep
