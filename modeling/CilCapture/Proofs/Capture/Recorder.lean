import CilCapture.Proofs.Capture.Runs

/-!
# What an armed recorder holds

While a row is armed, the recorder's count, what it has staged and what the filter has stashed
follow from the runs of the callback alone: `Settled` says how, with the runs as a journal. A run
of the callback preserves it, one that fails up to the fault that is stashed for it
(`record_journaled`); so does filtering, at any depth of nesting (`sifted_siftWithin`), and so an
errand (`settled_perform`).

The invariant has two forms, because a failing run is entered in the journal before its fault is
stashed: `Settled` holds between runs, `Armed` in the moment after one that failed. A breakdown is
stashed one level further out than a failure, by the entry and not by the filter, and `Sifted` is
the invariant at that point.

The induction over nested calls is on the levels that are left, as in the definition of the filter.
Calls of the compiler are part of it at every level, since the callback may make them.
-/

namespace CilCapture.Capture

open Engine Compile Body

variable {M W α : Type}

section

variable [NativeCode W] [CodeSpace W]

/-- An armed recorder after the runs in its journal. A fault is stashed only for one of them. -/
structure Armed (rules : CaptureRules M W) (row before : Nat) (output : Option M)
    (process : Journaled M W) : Prop where
  callback_eq : process.filter.callback = some (Callback.journaled (record rules))
  output_eq : process.world.output = output
  row_eq : process.client.1.targetRow = some row
  count_eq : process.client.1.count = before + (claims process.client.2).length
  staged_eq : process.client.1.staged =
    (claims process.client.2).getLast?.bind fun claim => claim.client.staged
  claimed : ∀ claim ∈ claims process.client.2,
    ∃ body, claim.client.staged = some ⟨row, body⟩ ∧ output.isSome
  caused : process.filter.stashed.isSome → ∃ run ∈ process.client.2, run.verdict.IsFailure

/-- An armed recorder between two runs: a fault is stashed if one of those before failed. -/
structure Settled (rules : CaptureRules M W) (row before : Nat) (output : Option M)
    (process : Journaled M W) : Prop extends Armed rules row before output process where
  noted : (∃ run ∈ process.client.2, run.verdict.IsFailure) → process.filter.stashed.isSome

section

variable {rules : CaptureRules M W} {row before : Nat} {output : Option M}
variable {process : Journaled M W}

/-- Another world settles nothing and unsettles nothing, as long as the output module is the same.
-/
theorem Settled.withWorld (settled : Settled rules row before output process)
    {workspace : Workspace M W} (same : workspace.output = output) :
    Settled rules row before output { process with world := workspace } :=
  { settled with output_eq := same }

/-- Only the row, the count and the staged body of a recorder are told. -/
theorem Settled.withRecorder (settled : Settled rules row before output process)
    {recorder : Recorder} (same_row : recorder.targetRow = process.client.1.targetRow)
    (same_count : recorder.count = process.client.1.count)
    (same_staged : recorder.staged = process.client.1.staged) :
    Settled rules row before output { process with client := (recorder, process.client.2) } :=
  { settled with
    row_eq := same_row.trans settled.row_eq
    count_eq := same_count.trans settled.count_eq
    staged_eq := same_staged.trans settled.staged_eq }

/-- Reporting leaves a recorder settled. -/
theorem Settled.report (settled : Settled rules row before output process)
    (notices : List Notice) : Settled rules row before output (process.report notices) :=
  { settled with }

/-- Only the callback and the stash of the filter matter. -/
theorem Settled.onFilter (settled : Settled rules row before output process)
    {change : Filter (Recorder × List (Interception Recorder)) (Workspace M W) →
      Filter (Recorder × List (Interception Recorder)) (Workspace M W)}
    (same_callback : (change process.filter).callback = process.filter.callback)
    (same_stash : (change process.filter).stashed = process.filter.stashed) :
    Settled rules row before output (process.onFilter change) :=
  { settled with
    callback_eq := same_callback.trans settled.callback_eq
    caused := fun stashed => settled.caused (same_stash ▸ stashed)
    noted := fun failed => same_stash.symm ▸ settled.noted failed }

/-- Stashing a fault for a run that failed settles the recorder. -/
theorem Armed.stash (armed : Armed rules row before output process)
    (failed : ∃ run ∈ process.client.2, run.verdict.IsFailure) (fault : Fault) :
    Settled rules row before output (process.onFilter (.stash fault)) :=
  { armed with
    caused := fun _ => failed
    noted := fun _ => rfl }

/-- What a capture works with makes no difference to what is said of the recorder. -/
theorem settled_stable :
    Stable (HasOutput output) (Settled rules row before output) where
  here settled := settled.output_eq
  withWorld settled _ same := settled.withWorld same
  withRecorder settled _ same :=
    settled.withRecorder (congrArg Books.targetRow same) (congrArg Books.count same)
      (congrArg Books.staged same)
  report settled notices := settled.report notices

end

end

/-! ## Runs of the callback -/

section

variable [NativeCode W] [CodeSpace W] {rules : CaptureRules M W} {row before : Nat}
variable {output : Option M}
variable {enter : CompileCall → Journaled M W → Int32 × Journaled M W}
variable {sift : CompileEvent → Journaled M W → FilterOutcome × Journaled M W}

/-- What a run of the callback leaves behind it: one that failed is still to be stashed. -/
def Ran (rules : CaptureRules M W) (row before : Nat) (output : Option M) (verdict : Verdict)
    (process : Journaled M W) : Prop :=
  match verdict with
  | .claim | .forward _ => Settled rules row before output process
  | .fail _ | .breakdown => Armed rules row before output process ∧
    ∃ run ∈ process.client.2, run.verdict.IsFailure

/-- A run that failed is entered in the journal and still to be stashed. -/
theorem ran_of_failure {event : CompileEvent} {verdict : Verdict} {process : Journaled M W}
    (settled : Settled rules row before output process) (failure : verdict.IsFailure) :
    Armed rules row before output (entered event verdict process) ∧
      ∃ run ∈ (entered event verdict process).client.2, run.verdict.IsFailure := by
  have no_claim : verdict ≠ .claim := by
    rintro rfl
    exact failure
  have same_claims : claims (entered event verdict process).client.2 = claims process.client.2 := by
    rw [entered, claims_concat, if_neg no_claim]
  have failed : ∃ run ∈ (entered event verdict process).client.2, run.verdict.IsFailure :=
    ⟨⟨event, verdict, process.client.1⟩, List.mem_append_right _ (List.mem_singleton_self _),
      failure⟩
  refine ⟨⟨settled.callback_eq, settled.output_eq, settled.row_eq, ?_, ?_, ?_, fun _ => failed⟩,
    failed⟩
  all_goals rw [same_claims]
  · exact settled.count_eq
  · exact settled.staged_eq
  · exact settled.claimed

/-- A run that claimed is entered with what it staged, and there is nothing to stash for it. -/
theorem settled_of_claim {event : CompileEvent} {process : Journaled M W} {code : Bytes}
    {body : MethodBody} (settled : Settled rules row before output process)
    (present : output.isSome) :
    Settled rules row before output (entered event .claim
      { process with client := (process.client.1.stage row code body, process.client.2) }) := by
  generalize run_eq : (⟨event, .claim, process.client.1.stage row code body⟩ :
    Interception Recorder) = run
  have verdict_eq : run.verdict = .claim := by rw [← run_eq]
  have staged_eq : run.client.staged = some ⟨row, body⟩ := by
    rw [← run_eq]
    rfl
  have more : claims (process.client.2 ++ [run]) = claims process.client.2 ++ [run] := by
    rw [claims_concat, if_pos verdict_eq]
  -- a claim is no failure, so it adds none to the ones before
  have same_failures : (∃ one ∈ process.client.2 ++ [run], one.verdict.IsFailure) ↔
      ∃ one ∈ process.client.2, one.verdict.IsFailure := by
    constructor
    · rintro ⟨one, mem, failure⟩
      rcases List.mem_append.mp mem with mem | mem
      · exact ⟨one, mem, failure⟩
      · cases List.mem_singleton.mp mem
        rw [verdict_eq] at failure
        exact absurd failure id
    · rintro ⟨one, mem, failure⟩
      exact ⟨one, List.mem_append_left _ mem, failure⟩
  rw [entered, run_eq]
  refine ⟨⟨settled.callback_eq, settled.output_eq, settled.row_eq, ?_, ?_, ?_, ?_⟩, ?_⟩
  · have count_eq := settled.count_eq
    change process.client.1.count + 1 = before + (claims (process.client.2 ++ [run])).length
    rw [more, List.length_append, List.length_singleton]
    omega
  · change some (StagedBody.mk row body) = (claims (process.client.2 ++ [run])).getLast?.bind _
    rw [more, List.getLast?_concat]
    exact staged_eq.symm
  · change ∀ claim ∈ claims (process.client.2 ++ [run]), _
    rw [more]
    intro claim mem
    rcases List.mem_append.mp mem with mem | mem
    · exact settled.claimed claim mem
    · cases List.mem_singleton.mp mem
      exact ⟨body, staged_eq, present⟩
  · exact fun stashed => same_failures.mpr (settled.caused stashed)
  · exact fun failed => settled.noted (same_failures.mp failed)

/-- A run of the callback ends, and its journal accounts for what it did. -/
theorem record_journaled
    (enters : ∀ call process, Settled rules row before output process →
      Settled rules row before output (enter call process).2)
    (answers : ∀ opcode token, KeepsOutput output (rules.resolver opcode token))
    {process : Journaled M W} (settled : Settled rules row before output process)
    (event : CompileEvent) :
    ∃ verdict final, (Callback.journaled (record rules) event).run enter sift process =
      (some verdict, final) ∧ Ran rules row before output verdict final := by
  obtain ⟨result, middle, ran, captured⟩ := run_journaled settled_stable (output_placing output)
    (output_native output) enters (fun opcode token => keeps_of_keepsOutput (answers opcode token))
    settled.row_eq settled event
  refine ⟨captureVerdict result, _, ran, ?_⟩
  cases result with
  | ok done =>
    obtain ⟨before_stage, gathered, settled', present, -, rfl⟩ := captured
    exact settled_of_claim settled' (settled'.output_eq ▸ present)
  | error abort =>
    cases abort with
    | fault cause => exact ran_of_failure captured trivial
    | breakdown => exact ran_of_failure captured trivial

end

/-! ## Filtering -/

section

variable [NativeCode W] [CodeSpace W] {rules : CaptureRules M W} {row before : Nat}
variable {output : Option M}

/-- What filtering leaves behind it: a run that broke down is still to be stashed. -/
def Sifted (rules : CaptureRules M W) (row before : Nat) (output : Option M) :
    FilterOutcome × Journaled M W → Prop
  | (.broken, process) => Armed rules row before output process ∧
    ∃ run ∈ process.client.2, run.verdict.IsFailure
  | (_, process) => Settled rules row before output process

/-- Containing a breakdown settles what it left open. -/
theorem settled_contain {result : FilterOutcome × Journaled M W}
    (sifted : Sifted rules row before output result) :
    Settled rules row before output (Process.contain result).2 := by
  obtain ⟨outcome, process⟩ := result
  cases outcome with
  | broken => exact sifted.1.stash sifted.2 _
  | forward event => exact sifted
  | claimed => exact sifted
  | failed => exact sifted

/-- An entry settles what filtering leaves, provided that filtering does so: this is the step from
one level of nesting to the next. -/
theorem settled_enterWith {sift : CompileEvent → Journaled M W → FilterOutcome × Journaled M W}
    (sifts : ∀ event process, Settled rules row before output process →
      Sifted rules row before output (sift event process))
    (call : CompileCall) {process : Journaled M W}
    (settled : Settled rules row before output process) :
    Settled rules row before output (process.enterWith sift call).2 := by
  rw [enterWith_eq]
  cases process.entrance call with
  | error result => exact settled
  | ok slot =>
    dsimp only
    unfold Process.route
    dsimp only
    split
    next => exact settled.withWorld settled.output_eq
    next =>
      have contained := settled_contain (sifts (call.event slot.layout) process settled)
      split <;> rename_i filtered <;> rw [filtered] at contained
      · exact contained.withWorld contained.output_eq
      · exact contained
      · exact contained

/-- Concluding from a verdict stashes the fault of a failure; only a breakdown is left to its entry.
-/
theorem sifted_conclude {verdict : Verdict} {process : Journaled M W}
    (ran : Ran rules row before output verdict process) :
    Sifted rules row before output ((process.onFilter .leave).conclude verdict) := by
  cases verdict with
  | claim => exact Settled.onFilter ran rfl rfl
  | forward event => exact Settled.onFilter ran rfl rfl
  | fail cause =>
    obtain ⟨armed, failed⟩ := ran
    have left : Armed rules row before output (process.onFilter .leave) := { armed with }
    exact left.stash failed cause
  | breakdown =>
    obtain ⟨armed, failed⟩ := ran
    exact ⟨{ armed with }, failed⟩

variable [Introspection W]

/-- Asking for the target unsettles nothing. -/
theorem settled_isTarget {process : Journaled M W}
    (settled : Settled rules row before output process) (request : CompileRequest) :
    Settled rules row before output (process.isTarget request).2 := by
  have kept := holds_isTarget (output_answering output) request settled.output_eq
  unfold Process.isTarget at kept ⊢
  dsimp only at kept ⊢
  split
  next => exact settled
  next free =>
    rw [if_neg free] at kept
    split <;> rename_i taken <;> rw [taken] at kept <;>
      exact { settled with output_eq := kept }

/-- Filtering an event settles every run of the callback that it causes, at any depth. -/
theorem sifted_siftWithin
    (answers : ∀ opcode token, KeepsOutput output (rules.resolver opcode token)) (levels : Nat)
    (event : CompileEvent) {process : Journaled M W}
    (settled : Settled rules row before output process) :
    Sifted rules row before output (process.siftWithin levels event) := by
  -- A call that the callback makes meets the filter with one level less.
  induction levels generalizing event process with
  | zero => exact settled
  | succ levels ih =>
    unfold Process.siftWithin
    cases event.request? with
    | none => exact settled
    | some request =>
      dsimp only
      split
      next => exact settled
      next =>
        have asked := settled_isTarget settled request
        generalize process.isTarget request = result at asked ⊢
        obtain ⟨isTarget, after⟩ := result
        dsimp only at asked ⊢
        cases isTarget with
        | false => exact asked
        | true =>
          have inside : Settled rules row before output (after.onFilter .enter) :=
            asked.onFilter rfl rfl
          obtain ⟨verdict, final, ran, left⟩ := record_journaled
            (fun call process settled => settled_enterWith
              (fun event process settled => ih event settled) call settled)
            answers inside event
          simp only [asked.callback_eq, Bool.not_true]
          rw [ran]
          exact sifted_conclude left

/-- Through an entry, with all that is nested in it, a settled recorder stays settled. -/
theorem settled_enter
    (answers : ∀ opcode token, KeepsOutput output (rules.resolver opcode token))
    (call : CompileCall) {process : Journaled M W}
    (settled : Settled rules row before output process) :
    Settled rules row before output (process.enter call).2 :=
  settled_enterWith (fun event _ settled => sifted_siftWithin answers _ event settled) call settled

/-- An errand that stores no other output module settles every run of the callback that it
causes. -/
theorem settled_perform {ε : Type}
    (answers : ∀ opcode token, KeepsOutput output (rules.resolver opcode token))
    {errand : Errand ε (Workspace M W) α} (keeps : KeepsOutput output errand)
    {process : Journaled M W} (settled : Settled rules row before output process) :
    Settled rules row before output (finalState (Process.perform errand process)) := by
  induction errand generalizing process with
  | done result => cases result <;> exact settled
  | observe next ih => exact ih _ (keeps _ settled.output_eq) settled
  | store workspace next ih => exact ih keeps.2 (settled.withWorld keeps.1)
  | compile call next ih => exact ih _ (keeps _) (settled_enter answers call settled)

end

end CilCapture.Capture
