import CilCapture.Proofs.Capture.Coupling
import CilCapture.Proofs.Sweep.Counting

/-!
# A row side by side

A sweep and variants of it capture a row. If what is done for the row is the same in all of them,
as far as a relation between their workspaces goes (`WorksAlike`), then the row comes to the same in
all of them (`agree_captureRow`), whatever else the sweeps differ in: what was captured before, what
the resolver remembers, where the routine stands that tells clauses.

A row is done in stages, and there is a lemma for each (`agree_captureArmed`, `agree_settleCapture`,
`agree_install`). The relation may be another one after a row that was captured than after one that
was not, since its body is stored then; `reached` picks it by the result.
-/

namespace CilCapture.Sweep

open Body Capture Compile Engine

variable {ι M W α : Type}

/-! ## Sweeps side by side -/

/-- A sweep and its variants come to the same, in processes that are related in a way that depends
on the result. -/
def AgreeSwept (R : Except Fault α → Process Recorder (Workspace M W) →
      (ι → Process Recorder (Workspace M W)) → Prop)
    (result : EStateM.Result Fault (SweepState M W) α)
    (results : ι → EStateM.Result Fault (SweepState M W) α) : Prop :=
  ∃ finals : ι → SweepState M W, (∀ i, results i = resultIn (finals i) (resultOf result)) ∧
    R (resultOf result) (finalState result).session.process fun i => (finals i).session.process

/-- Stores a body in the output module of a workspace. -/
def storeBody [ModuleStore M W] (row : Nat) (body : MethodBody) (workspace : Workspace M W) :
    Except Fault Unit × Workspace M W :=
  match workspace.output with
  | none => (.error .noOutputModule, workspace)
  | some module_ =>
    match ModuleStore.replaceBody row body module_ with
    | .ok () after => (.ok (), { workspace with output := some after })
    | .error fault after => (.error fault, { workspace with output := some after })

/-- Installing a body stores it in the output module and changes nothing else. -/
theorem install_eq [ModuleStore M W] (row : Nat) (body : MethodBody) (state : SweepState M W) :
    onSession (Session.install row body) state =
      resultIn (state.withWorkspace (storeBody row body state.session.process.world).2)
        (storeBody row body state.session.process.world).1 := by
  unfold onSession Session.install storeBody
  cases output_eq : state.session.process.world.output with
  | none => rfl
  | some module_ =>
    dsimp only
    cases ModuleStore.replaceBody row body module_ <;> rfl

/-- The relation that a row ends in: `T` if it counts as captured, and otherwise `S`. -/
def reached (S T : Workspace M W → (ι → Workspace M W) → Prop) :
    Except Fault Bool → Workspace M W → (ι → Workspace M W) → Prop
  | .ok true => T
  | .ok false | .error _ => S

/-- Where both relations are one, the result makes no difference. -/
theorem reached_self (S : Workspace M W → (ι → Workspace M W) → Prop)
    (result : Except Fault Bool) : reached S S result = S := by
  rcases result with _ | _ | _ <;> rfl

/-- What is done for a row by a plan and by another one is the same, with workspaces related by `S`
at each call and whenever something is done, and by `T` once a body is stored. The method has one of
the handles and makes calls of a kind. -/
structure WorksAlike [ModuleStore M W] [NativeCode W] [CodeSpace W] [Introspection W]
    (around : Surroundings M W) (admits : CompileCall → Prop) (handles : Handle → Prop)
    (S T : Workspace M W → (ι → Workspace M W) → Prop) (plan plan' : Plan M W)
    (rules rules' : CaptureRules M W) (row : Nat) : Prop
    extends Alike around admits S rules rules' where
  methodHandle : ∀ {workspace variants}, S workspace variants →
    (Workspace.lift (M := M)
      (plan.context.host.methodHandle (.ofMethod (UInt32.ofNat row)))).Like S admits
      (fun result => ∀ handle, result = .ok (some handle) → handles handle) workspace
      (fun _ => Workspace.lift
        (plan'.context.host.methodHandle (.ofMethod (UInt32.ofNat row)))) variants
  needsCapture : ∀ {workspace variants}, S workspace variants →
    (plan.strategy.needsCapture plan.context row).Like S admits (fun _ => True) workspace
      (fun _ => plan'.strategy.needsCapture plan'.context row) variants
  forceCompile : ∀ {workspace variants}, S workspace variants → ∀ handle, handles handle →
    (plan.strategy.forceCompile plan.context handle).Like S admits (fun _ => True) workspace
      (fun _ => plan'.strategy.forceCompile plan'.context handle) variants
  store : ∀ {workspace variants}, S workspace variants → ∀ body,
    (∀ i, (storeBody row body (variants i)).1 = (storeBody row body workspace).1) ∧
      reached S T ((storeBody row body workspace).1.map fun _ => true)
        (storeBody row body workspace).2 fun i => (storeBody row body (variants i)).2

section

variable [NativeCode W] [CodeSpace W]
variable {around : Surroundings M W} {admits : CompileCall → Prop} {handles : Handle → Prop}
variable {S T : Workspace M W → (ι → Workspace M W) → Prop}
variable {plan plan' : Plan M W} {rules rules' : CaptureRules M W} {row : Nat}
variable {base : Nat} {bases : ι → Nat}
variable {state : SweepState M W} {others : ι → SweepState M W}

/-- Twins stay twins when the same row is armed in both. -/
theorem twinned_arm (row : Nat) (handle : Handle)
    (twinned : Twinned around S rules rules' base bases state.session.process
      fun i => (others i).session.process) :
    Twinned around S rules rules' base bases (state.session.arm row handle).process
      fun i => ((others i).session.arm row handle).process where
  related := twinned.related
  here := { twinned.here with }
  there i := { twinned.there i with }
  twins i := { twinned.twins i with targetMethod := rfl, targetRow := rfl, staged := rfl }
  count := twinned.count

/-- Twins stay twins when they are put to rest. -/
theorem twinned_rested
    (twinned : Twinned around S rules rules' base bases state.session.process
      fun i => (others i).session.process) :
    Twinned around S rules rules' base bases (rested state.session).process
      fun i => (rested (others i).session).process where
  related := twinned.related
  here := { twinned.here with }
  there i := { twinned.there i with }
  twins i := { twinned.twins i with
    targetMethod := rfl, targetRow := rfl, staged := rfl, stashed := rfl }
  count := twinned.count

variable [Introspection W]

/-- What a sweep carries out side by side with variants comes to the same, if the errands do. -/
theorem agree_performed (alike : Alike around admits S rules rules')
    {gives : Except Fault α → Prop} {routine : Routine (Workspace M W) α}
    {routines : ι → Routine (Workspace M W) α}
    (twinned : Twinned around S rules rules' base bases state.session.process
      fun i => (others i).session.process)
    (like : routine.Like S admits gives state.session.process.world routines
      fun i => (others i).session.process.world) :
    AgreeSwept (fun _ => Twinned around S rules rules' base bases) (perform routine state)
        (fun i => perform (routines i) (others i)) ∧
      gives (resultOf (perform routine state)) := by
  have performed (routine : Routine (Workspace M W) α) (state : SweepState M W) :
      perform routine state = resultIn
        { state with session.process := finalState (Process.perform routine state.session.process) }
        (resultOf (Process.perform routine state.session.process)) := by
    unfold perform onProcess
    cases Process.perform routine state.session.process <;> rfl
  obtain ⟨same, related, given⟩ :=
    agree_perform (coupling_twinned alike) over_twinned twinned like
  unfold AgreeSwept
  simp only [performed, same, resultOf_resultIn, finalState_resultIn]
  exact ⟨⟨_, fun _ => rfl, related⟩, given⟩

/-! ## The armed row -/

variable [ModuleStore M W]

/-- A body is stored alike, or refused alike. -/
theorem agree_install
    (works : WorksAlike around admits handles S T plan plan' rules rules' row) (body : MethodBody)
    (twinned : Twinned around S rules rules' base bases state.session.process
      fun i => (others i).session.process) :
    AgreeSwept (fun result =>
        Twinned around (reached S T (result.map fun _ => true)) rules rules' base bases)
      (onSession (Session.install row body) state)
      (fun i => onSession (Session.install row body) (others i)) := by
  obtain ⟨same, stored⟩ := works.store twinned.related body
  unfold AgreeSwept
  simp only [install_eq, same, resultOf_resultIn, finalState_resultIn]
  exact ⟨_, fun _ => rfl, twinned.withWorld stored⟩

/-- What comes after the compilation is the same: the same number of captures counted up, the same
body staged, the same fault taken. -/
theorem agree_settleCapture
    (works : WorksAlike around admits handles S T plan plan' rules rules' row)
    (compiled : Except Fault Unit) {before : Nat} {befores : ι → Nat}
    (counted : ∀ i, before + bases i = befores i + base)
    (staged_row : ∀ staged, state.session.process.client.staged = some staged → staged.row = row)
    (twinned : Twinned around S rules rules' base bases state.session.process
      fun i => (others i).session.process) :
    AgreeSwept (fun result =>
        Twinned around (reached S T (result.map fun _ => true)) rules rules' base bases)
      (settleCapture before compiled state)
      (fun i => settleCapture (befores i) compiled (others i)) := by
  have calm := twinned_rested twinned
  have same_count (i : ι) : (others i).captures - befores i = state.captures - before := by
    have one := twinned.count i
    have other := counted i
    unfold SweepState.captures
    omega
  have same_staged (i : ι) := (twinned.twins i).staged
  have same_stash (i : ι) := (twinned.twins i).stashed
  have failed (cause : Fault) : AgreeSwept (fun result =>
        Twinned around (reached S T (result.map fun _ => true)) rules rules' base bases)
      (.error cause { state with session := rested state.session } :
        EStateM.Result Fault (SweepState M W) Unit)
      (fun i => .error cause { others i with session := rested (others i).session }) :=
    ⟨_, fun _ => rfl, calm⟩
  simp only [settleCapture_eq, same_staged, same_count, same_stash]
  cases state.session.process.filter.stashed with
  | some cause => exact failed cause
  | none =>
    cases compiled with
    | error cause => exact failed cause
    | ok done =>
      dsimp only
      cases once :
          Plan.stagedOnce state.session.process.client.staged (state.captures - before) with
      | error cause => exact failed cause
      | ok staged =>
        obtain ⟨staged_eq, -⟩ := stagedOnce_eq_ok once
        cases staged_row staged staged_eq
        exact agree_install works staged.body calm

/-- The capture of an armed row comes to the same and ends in the relation that its result calls
for. -/
theorem agree_captureArmed
    (works : WorksAlike around admits handles S T plan plan' rules rules' row) {handle : Handle}
    (handled : handles handle)
    (twinned : Twinned around S rules rules' base bases state.session.process
      fun i => (others i).session.process) :
    AgreeSwept (fun result =>
        Twinned around (reached S T (result.map fun _ => true)) rules rules' base bases)
      (plan.captureArmed row handle state)
      (fun i => plan'.captureArmed row handle (others i)) := by
  have armed := twinned_arm row handle twinned
  obtain ⟨same, compiled, -⟩ := agree_perform (coupling_twinned works.toAlike)
    over_twinned armed (works.forceCompile armed.related handle handled)
  have told := tallies_perform (plan.strategy.forceCompile plan.context handle)
    (state.session.arm row handle).process armed.here.callback_eq
  -- What compiling leaves staged is a body of the armed row, so it is this row that is stored.
  let after (plan : Plan M W) (state : SweepState M W) : SweepState M W :=
    { state with session.process := finalState (Process.perform
      (plan.strategy.forceCompile plan.context handle) (state.session.arm row handle).process) }
  have compiled : Twinned around S rules rules' base bases (after plan state).session.process
    fun i => (after plan' (others i)).session.process := compiled
  simp only [captureArmed_eq, same]
  exact agree_settleCapture works _ twinned.count (fun _ => told.row_of_staged rfl rfl) compiled

/-! ## The row -/

/-- A row comes to the same in related sweeps. -/
theorem agree_captureRow
    (works : WorksAlike around admits handles S T plan plan' rules rules' row)
    (twinned : Twinned around S rules rules' base bases state.session.process
      fun i => (others i).session.process) :
    AgreeSwept (fun result => Twinned around (reached S T result) rules rules' base bases)
      (plan.captureRow row state) (fun i => plan'.captureRow row (others i)) := by
  simp only [captureRow_eq]
  obtain ⟨⟨founds, same, found⟩, handled⟩ :=
    agree_performed works.toAlike twinned (works.methodHandle twinned.related)
  simp only [same]
  generalize perform (Workspace.lift
    (plan.context.host.methodHandle (.ofMethod (UInt32.ofNat row)))) state = looked
    at found handled ⊢
  obtain ⟨_ | handle, middle⟩ | ⟨cause, middle⟩ := looked
  · exact ⟨founds, fun _ => rfl, found⟩
  · dsimp only [finalState, resultOf, resultIn] at found ⊢
    obtain ⟨⟨neededs, same, needed⟩, -⟩ :=
      agree_performed works.toAlike found (works.needsCapture found.related)
    simp only [same]
    generalize perform (plan.strategy.needsCapture plan.context row) middle = asked at needed ⊢
    obtain ⟨_ | _, needing⟩ | ⟨cause, needing⟩ := asked
    · exact ⟨neededs, fun _ => rfl, needed⟩
    · dsimp only [finalState, resultOf, resultIn] at needed ⊢
      obtain ⟨finals, same, final⟩ := agree_captureArmed works (handled handle rfl) needed
      simp only [same]
      generalize plan.captureArmed row handle needing = captured at final ⊢
      obtain ⟨_, last⟩ | ⟨cause, last⟩ := captured <;> exact ⟨finals, fun _ => rfl, final⟩
    · exact ⟨neededs, fun _ => rfl, needed⟩
  · exact ⟨founds, fun _ => rfl, found⟩

end

end CilCapture.Sweep
