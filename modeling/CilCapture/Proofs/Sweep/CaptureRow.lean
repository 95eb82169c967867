import CilCapture.Proofs.Capture.Recorder
import CilCapture.Proofs.Sweep.AtRest
import CilCapture.Rehearsal.World
import CilCapture.Sweep.Run

/-!
# Capturing a row

A row is captured when its method is compiled, while the row is armed, with exactly one run of the
callback that claims the call and none that fails. `CapturesOnce` says this by the runs alone, with
nothing of how a sweep finds out; `captureRow_exactlyOnce` says that this is when a sweep installs a
body, and which one, and that it leaves no trace otherwise.

A sweep counts captures and looks at what is staged and stashed. That this finds out about the runs
is the content of `stagedOnce_of_settled` and `captureArmed_spec`, and rests on the invariant of an
armed recorder (`Settled`): the count has grown by the claims, what is staged is the last of them,
and something is stashed just if a run failed.

What the output module does with a body is its own affair, so a row that compiles once still fails
if the body is not taken. The statement has a case for it.
-/

namespace CilCapture.Sweep

open Capture Compile Memory

variable {M W : Type}

/-- A strategy that leaves the output module to the session while methods are captured. -/
structure Strategy.KeepsOutput (strategy : Strategy M W) (context : Context M W) : Prop where
  needsCapture : ∀ output row, Capture.KeepsOutput output (strategy.needsCapture context row)
  forceCompile : ∀ output method, Capture.KeepsOutput output (strategy.forceCompile context method)
  resolver : ∀ output opcode token, Capture.KeepsOutput output (strategy.resolver opcode token)

/-- A module store that a failing replacement leaves as it was. -/
def ReplacesOrKeeps (M : Type) {W : Type} [ModuleStore M W] : Prop :=
  ∀ (row : Nat) (body : Body.MethodBody) (module_ after : M) (fault : Fault),
    ModuleStore.replaceBody row body module_ = .error fault after → after = module_

/-- Runs of the callback of which one claims its call, leaving `body` staged for the row, and none
fails. -/
def SingleClaim (runs : List (Interception Recorder)) (row : Nat) (body : Body.MethodBody) : Prop :=
  (∀ run ∈ runs, ¬ run.verdict.IsFailure) ∧
    ∃ run, claims runs = [run] ∧ run.client.staged = some ⟨row, body⟩

/-- A row whose compilation, with the row armed, comes to an end and is claimed once. -/
def CompilesOnce [Engine.Introspection W] [NativeCode W] (plan : Plan M W) (row : Nat)
    (handle : Handle) (state : SweepState M W) (body : Body.MethodBody) : Prop :=
  let armed := (state.session.arm row handle).process
  let compile := plan.strategy.forceCompile plan.context handle
  (∃ compiled, Process.perform compile armed = .ok () compiled) ∧
    SingleClaim (armed.interceptions compile) row body

/-- A row whose method has a handle and is to be captured, as it turns out on the way to
`needed`. -/
def Approaches [Engine.Introspection W] [NativeCode W] (plan : Plan M W) (row : Nat)
    (state : SweepState M W) (handle : Handle) (needed : SweepState M W) : Prop :=
  ∃ found,
    perform (Workspace.lift (plan.context.host.methodHandle (.ofMethod (UInt32.ofNat row)))) state =
        .ok (some handle) found ∧
      perform (plan.strategy.needsCapture plan.context row) found = .ok true needed

/-- A row that is to be captured and compiles once. -/
def CapturesOnce [Engine.Introspection W] [NativeCode W] (plan : Plan M W) (row : Nat)
    (state : SweepState M W) (body : Body.MethodBody) : Prop :=
  ∃ handle needed, Approaches plan row state handle needed ∧
    CompilesOnce plan row handle needed body

/-- A body that the output module takes for a row, which makes it another module. -/
def Accepts [ModuleStore M W] (output : Option M) (row : Nat) (body : Body.MethodBody) (after : M) :
    Prop :=
  ∃ module_, output = some module_ ∧ ModuleStore.replaceBody row body module_ = .ok () after

/-- A result that is a success, with `after` as the output module, just when a condition holds of
it, and a failure with the output module as it was when there is no such `after`. -/
def DecidedBy (condition : M → Prop) (output : Option M)
    (result : EStateM.Result Fault (SweepState M W) Unit) : Prop :=
  (∃ after final, condition after ∧ result = .ok () final ∧ final.output = some after) ∨
    (∀ after, ¬ condition after) ∧
      ∃ cause final, result = .error cause final ∧ final.output = output

/-- A condition may be put in another way. -/
theorem DecidedBy.congr {condition condition' : M → Prop} {output : Option M}
    {result : EStateM.Result Fault (SweepState M W) Unit}
    (same : ∀ after, condition after ↔ condition' after)
    (decided : DecidedBy condition output result) :
    DecidedBy condition' output result := by
  rcases decided with ⟨after, final, holds, done⟩ | ⟨never, failed⟩
  · exact .inl ⟨after, final, (same after).mp holds, done⟩
  · exact .inr ⟨fun after holds => never after ((same after).mpr holds), failed⟩

/-- Only one body can be staged by the one run that claimed. -/
theorem SingleClaim.unique {runs : List (Interception Recorder)} {row : Nat}
    {body other : Body.MethodBody} (once : SingleClaim runs row body)
    (again : SingleClaim runs row other) : body = other := by
  obtain ⟨-, run, runs_eq, staged_eq⟩ := once
  obtain ⟨-, second, second_eq, other_eq⟩ := again
  obtain rfl : run = second := by simpa using runs_eq.symm.trans second_eq
  simpa using staged_eq.symm.trans other_eq

/-! ## Settling a row -/

/-- The session put to rest after its row. -/
def rested (session : Session M W) : Session M W := session.idle.takeStaged.2.takeError.2

/-- A session that was put to rest is at rest. -/
theorem atRest_rested (session : Session M W) : AtRest (rested session) := ⟨rfl, rfl, rfl, rfl⟩

section

variable [ModuleStore M W]

/-- What a sweep does once the method was compiled. -/
def settleCapture (before : Nat) (compiled : Except Fault Unit) : SweepStep M W Unit := do
  changeSession Session.idle
  let staged ← takeFrom Session.takeStaged
  match ← takeFrom Session.takeError with
  | some cause => throw cause
  | none =>
    settle compiled
    let body ← settle (Plan.stagedOnce staged ((← get).captures - before))
    onSession (Session.install body.row body.body)

/-- The session comes to rest before anything is decided. -/
theorem settleCapture_eq (before : Nat) (compiled : Except Fault Unit) (state : SweepState M W) :
    settleCapture before compiled state =
      let rest : SweepState M W := { state with session := rested state.session }
      match state.session.process.filter.stashed with
      | some cause => .error cause rest
      | none =>
        match compiled with
        | .error cause => .error cause rest
        | .ok () =>
          match Plan.stagedOnce state.session.process.client.staged (state.captures - before) with
          | .error cause => .error cause rest
          | .ok staged => onSession (Session.install staged.row staged.body) rest := by
  obtain ⟨patches, redirect, ⟨resolver, module, method, callback, depth, stashed⟩, methodSlot,
    compSlot, held, client, world, notices⟩ := state
  cases stashed with
  | some cause => rfl
  | none =>
    cases compiled with
    | error cause => rfl
    | ok done =>
      change (settle (Plan.stagedOnce client.staged (client.count - before)) >>= fun body =>
        onSession (Session.install body.row body.body)) _ =
        match Plan.stagedOnce client.staged (client.count - before) with
        | .error cause => _
        | .ok staged => _
      cases Plan.stagedOnce client.staged (client.count - before) <;> rfl

/-- Installing leaves the session as it is and at most changes the workspace. -/
theorem install_final (row : Nat) (body : Body.MethodBody) (state : SweepState M W) :
    ∃ workspace, finalState (onSession (Session.install row body) state) =
      state.withWorkspace workspace := by
  unfold onSession Session.install
  cases state.session.process.world.output with
  | none => exact ⟨state.session.process.world, rfl⟩
  | some module_ =>
    dsimp only
    cases ModuleStore.replaceBody row body module_ <;> exact ⟨_, rfl⟩

/-- Whatever is decided, nothing but the workspace changes once the session is at rest. -/
theorem settleCapture_final (before : Nat) (compiled : Except Fault Unit) (state : SweepState M W) :
    ∃ workspace, finalState (settleCapture before compiled state) =
      ({ state with session := rested state.session } : SweepState M W).withWorkspace
        workspace := by
  rw [settleCapture_eq]
  dsimp only
  cases state.session.process.filter.stashed with
  | some cause => exact ⟨state.session.process.world, rfl⟩
  | none =>
    cases compiled with
    | error cause => exact ⟨state.session.process.world, rfl⟩
    | ok done =>
      dsimp only
      cases Plan.stagedOnce state.session.process.client.staged (state.captures - before) with
      | error cause => exact ⟨state.session.process.world, rfl⟩
      | ok staged => exact install_final _ _ _

/-- Installing a body changes the output module to what it becomes, or not at all. -/
theorem install_spec (atomic : ReplacesOrKeeps M) (row : Nat) (body : Body.MethodBody)
    (state : SweepState M W) :
    DecidedBy (Accepts state.output row body) state.output
      (onSession (Session.install row body) state) := by
  unfold onSession Session.install
  cases output_eq : state.session.process.world.output with
  | none =>
    refine .inr ⟨?_, _, _, rfl, rfl⟩
    rintro after ⟨module_, there, -⟩
    cases output_eq.symm.trans there
  | some module_ =>
    dsimp only
    cases replaced : ModuleStore.replaceBody row body module_ with
    | ok done after => exact .inl ⟨after, _, ⟨module_, output_eq, replaced⟩, rfl, rfl⟩
    | error fault after =>
      refine .inr ⟨?_, _, _, rfl, ?_⟩
      · rintro other ⟨found, there, accepted⟩
        cases output_eq.symm.trans there
        cases replaced.symm.trans accepted
      · cases atomic row body module_ after fault replaced
        exact output_eq.symm

/-- Any other number of captures than one is a failure, whatever is staged. -/
theorem stagedOnce_of_ne_one (staged : Option StagedBody) {count : Nat} (other : count ≠ 1) :
    ∃ cause, Plan.stagedOnce staged count = .error cause := by
  unfold Plan.stagedOnce
  cases staged with
  | none => exact ⟨_, rfl⟩
  | some body => exact ⟨_, if_neg other⟩

variable [Engine.Introspection W] [NativeCode W]

/-- An armed row is settled with what its compilation came to. -/
theorem captureArmed_eq (plan : Plan M W) (row : Nat) (handle : Handle) (state : SweepState M W) :
    let compiled := Process.perform (plan.strategy.forceCompile plan.context handle)
      (state.session.arm row handle).process
    plan.captureArmed row handle state =
      settleCapture state.captures (resultOf compiled)
        { state with session.process := finalState compiled } := by
  let armed : SweepState M W := { state with session := state.session.arm row handle }
  have unfolded : plan.captureArmed row handle state =
      (attempt (perform (plan.strategy.forceCompile plan.context handle)) >>= fun compiled =>
        settleCapture state.captures compiled) armed := rfl
  dsimp only
  rw [unfolded]
  change EStateM.bind (attempt (perform _)) _ armed = _
  unfold EStateM.bind attempt perform onProcess
  dsimp only [armed]
  cases Process.perform (plan.strategy.forceCompile plan.context handle)
    (state.session.arm row handle).process <;> rfl

/-- An armed row ends at rest, after whatever its compilation came to. -/
theorem captureArmed_final (plan : Plan M W) (row : Nat) (handle : Handle)
    (state : SweepState M W) :
    ∃ workspace, finalState (plan.captureArmed row handle state) =
      ({ state with session := rested { state.session with
          process := finalState (Process.perform (plan.strategy.forceCompile plan.context handle)
            (state.session.arm row handle).process) } } : SweepState M W).withWorkspace
        workspace := by
  rw [captureArmed_eq]
  exact settleCapture_final _ _ _

end

/-! ## The armed row -/

section

variable [NativeCode W] [Engine.CodeSpace W] {plan : Plan M W}
variable {rules : CaptureRules M W} {row : Nat} {handle : Handle} {state : SweepState M W}

/-- Counter and staged body tell whether one run claimed its call, if none failed. -/
theorem stagedOnce_of_settled {before : Nat} {output : Option M}
    {process : Process Recorder (Workspace M W)} {journal : List (Interception Recorder)}
    (settled : Settled rules row before output (process.journaled journal))
    (none_failed : ∀ run ∈ journal, ¬ run.verdict.IsFailure) :
    (∃ body, SingleClaim journal row body ∧
        Plan.stagedOnce process.client.staged (process.client.count - before) =
          .ok ⟨row, body⟩) ∨
      (∀ body, ¬ SingleClaim journal row body) ∧
        ∃ cause, Plan.stagedOnce process.client.staged (process.client.count - before) =
          .error cause := by
  have counted : process.client.count - before = (claims journal).length := by
    have count_eq : process.client.count = before + (claims journal).length := settled.count_eq
    omega
  have staged_eq : process.client.staged =
    (claims journal).getLast?.bind fun claim => claim.client.staged := settled.staged_eq
  rw [counted]
  by_cases single : (claims journal).length = 1
  · obtain ⟨run, runs_eq⟩ := List.length_eq_one_iff.mp single
    have mem : run ∈ claims journal := by
      rw [runs_eq]
      exact List.mem_singleton_self run
    obtain ⟨body, run_staged, -⟩ := settled.claimed run mem
    have staged : process.client.staged = some ⟨row, body⟩ := by
      rw [staged_eq, runs_eq]
      exact run_staged
    refine .inl ⟨body, ⟨none_failed, run, runs_eq, run_staged⟩, ?_⟩
    rw [staged, single]
    rfl
  · refine .inr ⟨?_, stagedOnce_of_ne_one _ single⟩
    rintro body ⟨-, run, runs_eq, -⟩
    rw [runs_eq] at single
    exact single rfl

/-- What is decided after the compilation is decided by the runs of the callback. -/
theorem settleCapture_spec [ModuleStore M W] (atomic : ReplacesOrKeeps M) {before : Nat}
    {output : Option M} (compiled : Except Fault Unit) {journal : List (Interception Recorder)}
    (settled : Settled rules row before output (state.session.process.journaled journal)) :
    DecidedBy (fun after => compiled = .ok () ∧
        ∃ body, SingleClaim journal row body ∧ Accepts output row body after) output
      (settleCapture before compiled state) := by
  rw [settleCapture_eq]
  dsimp only
  cases stashed : state.session.process.filter.stashed with
  -- What is stashed outlives later successes, so it decides first.
  | some cause =>
    obtain ⟨run, mem, failure⟩ := settled.caused (Option.isSome_iff_exists.mpr ⟨cause, stashed⟩)
    refine .inr ⟨?_, cause, _, rfl, settled.output_eq⟩
    rintro after ⟨-, body, ⟨none_failed, -⟩, -⟩
    exact none_failed run mem failure
  | none =>
    have none_failed : ∀ run ∈ journal, ¬ run.verdict.IsFailure := by
      intro run mem failure
      have noted : state.session.process.filter.stashed.isSome := settled.noted ⟨run, mem, failure⟩
      rw [stashed] at noted
      cases noted
    cases compiled with
    | error cause =>
      refine .inr ⟨?_, cause, _, rfl, settled.output_eq⟩
      rintro after ⟨impossible, -⟩
      cases impossible
    | ok done =>
      dsimp only
      unfold SweepState.captures
      rcases stagedOnce_of_settled settled none_failed with
        ⟨body, once, staged⟩ | ⟨never, cause, mismatch⟩
      · rw [staged]
        let calm : SweepState M W := { state with session := rested state.session }
        have same_output : calm.output = output := settled.output_eq
        have installed := install_spec atomic row body calm
        rw [same_output] at installed
        refine installed.congr fun after => ?_
        constructor
        · exact fun accepts => ⟨rfl, body, once, accepts⟩
        · rintro ⟨-, other, other_once, accepts⟩
          cases once.unique other_once
          exact accepts
      · rw [mismatch]
        refine .inr ⟨?_, cause, _, rfl, settled.output_eq⟩
        rintro after ⟨-, body, once, -⟩
        exact never body once

variable [Engine.Introspection W]

/-- What the recorder and the filter hold once the method was compiled follows from the runs of the
callback. -/
theorem settled_forceCompile (row : Nat) (handle : Handle)
    (same_resolver : rules.resolver = plan.strategy.resolver)
    (keeps : plan.strategy.KeepsOutput plan.context)
    (callback_eq : state.session.process.filter.callback = some (record rules))
    (rest : AtRest state.session) :
    Settled rules row state.captures state.output
      ((finalState (Process.perform (plan.strategy.forceCompile plan.context handle)
        (state.session.arm row handle).process)).journaled
          ((state.session.arm row handle).process.interceptions
            (plan.strategy.forceCompile plan.context handle))) := by
  have armed : Settled rules row state.captures state.output
      ((state.session.arm row handle).process.journaled []) := by
    refine ⟨⟨?_, rfl, rfl, rfl, rfl, ?_, ?_⟩, ?_⟩
    · change state.session.process.filter.callback.map Callback.journaled = _
      rw [callback_eq]
      rfl
    · exact fun claim mem => absurd mem List.not_mem_nil
    · intro stashed
      change state.session.process.filter.stashed.isSome = true at stashed
      rw [rest.stashed_eq] at stashed
      cases stashed
    · rintro ⟨run, mem, -⟩
      cases mem
  rw [← finalState_perform_journaled]
  refine settled_perform (fun opcode token => ?_) (keeps.forceCompile _ _) armed
  rw [same_resolver]
  exact keeps.resolver _ _ _

/-- What an armed row comes to is decided by the compilation and the runs of the callback in it. -/
theorem captureArmed_spec [ModuleStore M W] (row : Nat) (handle : Handle)
    (keeps : plan.strategy.KeepsOutput plan.context) (atomic : ReplacesOrKeeps M)
    (records : Records plan state.session) (rest : AtRest state.session) :
    DecidedBy (fun after => ∃ body, CompilesOnce plan row handle state body ∧
        Accepts state.output row body after) state.output
      (plan.captureArmed row handle state) := by
  obtain ⟨rules, same_resolver, callback_eq⟩ := records
  have settled := settled_forceCompile row handle same_resolver keeps callback_eq rest
  rw [captureArmed_eq]
  unfold CompilesOnce
  cases performed : Process.perform (plan.strategy.forceCompile plan.context handle)
    (state.session.arm row handle).process with
  | ok done process =>
    rw [performed] at settled
    let compiled : SweepState M W := { state with session := { state.session with process } }
    have settled : Settled rules row state.captures state.output
      (compiled.session.process.journaled _) := settled
    refine (settleCapture_spec atomic (.ok ()) settled).congr fun after => ?_
    constructor
    · rintro ⟨-, body, once, accepts⟩
      exact ⟨body, ⟨⟨process, performed⟩, once⟩, accepts⟩
    · rintro ⟨body, ⟨-, once⟩, accepts⟩
      exact ⟨rfl, body, once, accepts⟩
  | error cause process =>
    rw [performed] at settled
    let failed : SweepState M W := { state with session := { state.session with process } }
    have settled : Settled rules row state.captures state.output
      (failed.session.process.journaled _) := settled
    refine (settleCapture_spec atomic (.error cause) settled).congr fun after => ?_
    constructor
    · rintro ⟨impossible, -⟩
      cases impossible
    · rintro ⟨body, ⟨⟨compiled, ended⟩, -⟩, -⟩
      cases performed.symm.trans ended

end

/-! ## The row -/

section

variable [Engine.Introspection W] [NativeCode W]

section

variable {plan : Plan M W} {row : Nat} {state needed : SweepState M W} {handle : Handle}

/-- A row comes to one handle and one state, since the steps are functions. -/
theorem Approaches.unique {handle' : Handle} {needed' : SweepState M W}
    (approaches : Approaches plan row state handle needed)
    (again : Approaches plan row state handle' needed') : handle = handle' ∧ needed = needed' := by
  obtain ⟨found, found_eq, needed_eq⟩ := approaches
  obtain ⟨found', found_eq', needed_eq'⟩ := again
  cases found_eq.symm.trans found_eq'
  cases needed_eq.symm.trans needed_eq'
  exact ⟨rfl, rfl⟩

end

/-- The capture of a row by its stages: no handle and no need are told as a row left alone, and only
what comes behind them can capture. -/
theorem captureRow_eq [ModuleStore M W] (plan : Plan M W) (row : Nat) (state : SweepState M W) :
    plan.captureRow row state =
      match perform (Workspace.lift
        (plan.context.host.methodHandle (.ofMethod (UInt32.ofNat row)))) state with
      | .error cause found => .error cause found
      | .ok none found => .ok false found
      | .ok (some handle) found =>
        match perform (plan.strategy.needsCapture plan.context row) found with
        | .error cause needed => .error cause needed
        | .ok false needed => .ok false needed
        | .ok true needed =>
          match plan.captureArmed row handle needed with
          | .ok () final => .ok true final
          | .error cause final => .error cause final := by
  change EStateM.bind (perform _) _ state = _
  unfold EStateM.bind
  cases perform (Workspace.lift
    (plan.context.host.methodHandle (.ofMethod (UInt32.ofNat row)))) state with
  | error cause found => rfl
  | ok handle? found =>
    cases handle? with
    | none => rfl
    | some handle =>
      change EStateM.bind (perform _) _ found = _
      unfold EStateM.bind
      dsimp only
      cases perform (plan.strategy.needsCapture plan.context row) found with
      | error cause needed => rfl
      | ok needed? needed =>
        cases needed? with
        | false => rfl
        | true =>
          change EStateM.bind (plan.captureArmed row handle) _ needed = _
          unfold EStateM.bind
          dsimp only
          cases plan.captureArmed row handle needed <;> rfl

/-- A row is armed if it is to be captured. Up to then, and if it is not armed, nothing but the
workspace changes. -/
theorem captureRow_cases [ModuleStore M W] (plan : Plan M W) (row : Nat) {state : SweepState M W}
    {holds : Workspace M W → Prop} (native : NativeKeeps holds)
    (looks : (Workspace.lift (M := M)
      (plan.context.host.methodHandle (.ofMethod (UInt32.ofNat row)))).Keeps holds)
    (asks : (plan.strategy.needsCapture plan.context row).Keeps holds)
    (rest : AtRest state.session) (here : holds state.session.process.world) :
    (∃ handle workspace, Approaches plan row state handle (state.withWorkspace workspace) ∧
        holds workspace ∧
        plan.captureRow row state =
          match plan.captureArmed row handle (state.withWorkspace workspace) with
          | .ok () final => .ok true final
          | .error cause final => .error cause final) ∨
      (∀ handle needed, ¬ Approaches plan row state handle needed) ∧
        (∀ final, plan.captureRow row state ≠ .ok true final) ∧
        ∃ workspace, finalState (plan.captureRow row state) = state.withWorkspace workspace ∧
          holds workspace := by
  rw [captureRow_eq]
  have looked := perform_atRest native looks rest here
  -- the four ways in which the approach ends early, and the one in which it arms
  cases handled : perform (Workspace.lift
    (plan.context.host.methodHandle (.ofMethod (UInt32.ofNat row)))) state with
  | error cause found =>
    rw [handled] at looked
    refine .inr ⟨?_, fun final => nofun, looked⟩
    rintro handle needed ⟨found, impossible, -⟩
    cases handled.symm.trans impossible
  | ok handle? found =>
    rw [handled] at looked
    cases handle? with
    | none =>
      refine .inr ⟨?_, fun final => nofun, looked⟩
      rintro handle needed ⟨found, impossible, -⟩
      cases handled.symm.trans impossible
    | some handle =>
      obtain ⟨there, rfl, held⟩ := looked
      have asked := perform_atRest native asks (rest.withWorkspace there) held
      dsimp only
      cases answered : perform (plan.strategy.needsCapture plan.context row)
        (state.withWorkspace there) with
      | error cause needed =>
        rw [answered] at asked
        refine .inr ⟨?_, fun final => nofun, asked⟩
        rintro handle' needed' ⟨found', found_eq, impossible⟩
        cases handled.symm.trans found_eq
        cases answered.symm.trans impossible
      | ok needed? needed =>
        rw [answered] at asked
        cases needed? with
        | false =>
          refine .inr ⟨?_, fun final => nofun, asked⟩
          rintro handle' needed' ⟨found', found_eq, impossible⟩
          cases handled.symm.trans found_eq
          cases answered.symm.trans impossible
        | true =>
          obtain ⟨workspace, rfl, held⟩ := asked
          exact .inl ⟨handle, workspace, ⟨_, handled, answered⟩, held, rfl⟩

variable [ModuleStore M W]

/-- What a row leaves: another workspace if it was not armed, and otherwise a session at rest after
the compilation. -/
theorem captureRow_final (plan : Plan M W) (row : Nat) {state : SweepState M W}
    (rest : AtRest state.session) :
    ∃ workspace, finalState (plan.captureRow row state) = state.withWorkspace workspace ∨
      ∃ handle before, Approaches plan row state handle (state.withWorkspace before) ∧
        finalState (plan.captureRow row state) =
          ({ state with session := rested { state.session with
              process := finalState (Process.perform
                (plan.strategy.forceCompile plan.context handle)
                ((state.withWorkspace before).session.arm row handle).process) } } :
            SweepState M W).withWorkspace workspace := by
  rcases captureRow_cases plan row ⟨fun _ _ _ => trivial, fun _ _ _ _ _ => trivial⟩
      (Errand.keeps_true _) (Errand.keeps_true _) rest trivial with
    ⟨handle, before, approaches, -, captured_eq⟩ | ⟨-, -, workspace, left, -⟩
  · obtain ⟨workspace, ended⟩ := captureArmed_final plan row handle (state.withWorkspace before)
    refine ⟨workspace, .inr ⟨handle, before, approaches, ?_⟩⟩
    rw [captured_eq]
    cases captured : plan.captureArmed row handle (state.withWorkspace before) <;>
      rw [captured] at ended <;> exact ended
  · exact ⟨workspace, .inl left⟩

/-- A row ends at rest. -/
theorem atRest_captureRow (plan : Plan M W) (row : Nat) {state : SweepState M W}
    (rest : AtRest state.session) : AtRest (finalState (plan.captureRow row state)).session := by
  obtain ⟨workspace, left | ⟨handle, before, -, left⟩⟩ := captureRow_final plan row rest
  · rw [left]
    exact rest.withWorkspace workspace
  · rw [left]
    exact AtRest.withWorkspace (atRest_rested _) workspace

variable [Engine.CodeSpace W] {plan : Plan M W}

/-- A row ends in one of two ways, and at rest in both. -/
theorem captureRow_spec (keeps : plan.strategy.KeepsOutput plan.context)
    (atomic : ReplacesOrKeeps M) (row : Nat) (state : SweepState M W)
    (records : Records plan state.session) (rest : AtRest state.session) :
    AtRest (finalState (plan.captureRow row state)).session ∧
      ((∃ body after final, CapturesOnce plan row state body ∧ Accepts state.output row body after ∧
          plan.captureRow row state = .ok true final ∧ final.output = some after) ∨
        (∀ body after, CapturesOnce plan row state body → ¬ Accepts state.output row body after) ∧
          (∀ final, plan.captureRow row state ≠ .ok true final) ∧
          (finalState (plan.captureRow row state)).output = state.output) := by
  refine ⟨atRest_captureRow plan row rest, ?_⟩
  rcases captureRow_cases plan row (output_native state.output)
      (keeps_of_keepsOutput (keepsOutput_lift _ _))
      (keeps_of_keepsOutput (keeps.needsCapture _ row)) rest rfl with
    ⟨handle, workspace, approaches, same, captured_eq⟩ | ⟨never, missed, workspace, left, same⟩
  · have records : Records plan (state.withWorkspace workspace).session := records
    have decided := captureArmed_spec row handle keeps atomic records
      (rest.withWorkspace workspace)
    have output_eq : (state.withWorkspace workspace).output = state.output := same
    rw [output_eq] at decided
    rw [captured_eq]
    rcases decided with
      ⟨after, final, ⟨body, once, accepts⟩, ok, left⟩ | ⟨never, cause, final, failed, left⟩
    · rw [ok]
      exact .inl ⟨body, after, final, ⟨handle, _, approaches, once⟩, accepts, rfl, left⟩
    · rw [failed]
      refine .inr ⟨?_, fun final => nofun, left⟩
      rintro body after ⟨handle', needed', again, once⟩ accepts
      obtain ⟨rfl, rfl⟩ := approaches.unique again
      exact never after ⟨body, once, accepts⟩
  · rw [left]
    refine .inr ⟨?_, missed, same⟩
    rintro body after ⟨handle, needed, approaches, -⟩
    exact absurd approaches (never handle needed)

/-- A row is captured exactly when it is to be captured, its compilation is claimed once, and the
output module accepts the body; then that body is all that changes in the output module, and
otherwise nothing does. The session is at rest again in any case. -/
theorem captureRow_exactlyOnce (keeps : plan.strategy.KeepsOutput plan.context)
    (atomic : ReplacesOrKeeps M) (row : Nat) (state : SweepState M W)
    (records : Records plan state.session) (rest : AtRest state.session) :
    ((∃ final, plan.captureRow row state = .ok true final) ↔
        ∃ body after, CapturesOnce plan row state body ∧ Accepts state.output row body after) ∧
      (∀ final, plan.captureRow row state = .ok true final →
        ∃ body after, CapturesOnce plan row state body ∧ Accepts state.output row body after ∧
          final.output = some after) ∧
      ((∀ final, plan.captureRow row state ≠ .ok true final) →
        (finalState (plan.captureRow row state)).output = state.output) ∧
      AtRest (finalState (plan.captureRow row state)).session := by
  obtain ⟨at_rest, ended⟩ := captureRow_spec keeps atomic row state records rest
  rcases ended with ⟨body, after, final, captures, accepts, captured, left⟩ | ⟨never, failed, left⟩
  · refine
      ⟨⟨fun _ => ⟨body, after, captures, accepts⟩, fun _ => ⟨final, captured⟩⟩, ?_, ?_, at_rest⟩
    · intro other again
      cases captured.symm.trans again
      exact ⟨body, after, captures, accepts, left⟩
    · exact fun missed => absurd captured (missed final)
  · refine ⟨⟨?_, ?_⟩, fun final captured => absurd captured (failed final), fun _ => left, at_rest⟩
    · rintro ⟨final, captured⟩
      exact absurd captured (failed final)
    · rintro ⟨body, after, captures, accepts⟩
      exact absurd accepts (never body after captures)

end

/-! ## A row among others -/

section

open Rehearsal

/-- A module that keeps the bodies it is given, for any row but row zero. -/
structure Ledger where
  entries : List StagedBody
  deriving DecidableEq, Repr

instance : ModuleStore Ledger World where
  methodCount ledger := ledger.entries.length
  hasBody _ _ := .ok true
  methodBody _ _ := .ok none
  replaceBody row body ledger :=
    if row = 0 then .error (.other "no row 0") ledger
    else .ok () ⟨ledger.entries ++ [⟨row, body⟩]⟩
  globalConstructor _ := none
  typeConstructors _ := []
  signatureCount _ := 0
  signature _ _ := .ok none
  setSignature _ _ ledger := .ok () ledger
  removeType _ ledger := .ok false ledger
  write _ _ _ world := .ok () world

/-- A ledger refuses row zero and then is as it was. -/
theorem ledger_replacesOrKeeps : ReplacesOrKeeps Ledger := by
  intro row body ledger after fault refused
  change (if row = 0 then EStateM.Result.error (Fault.other "no row 0") ledger
    else .ok () ⟨ledger.entries ++ [⟨row, body⟩]⟩) = .error fault after at refused
  by_cases zero : row = 0
  · rw [if_pos zero] at refused
    cases refused
    rfl
  · rw [if_neg zero] at refused
    cases refused

/-- A call that has a method compiled whose code only returns. -/
def returning (method : Handle) : CompileCall where
  routine := .compileMethod
  thread := 1
  this := 0x60
  jitInfo := 0x70
  info := some {
    methodHandle := method
    moduleHandle := 0x10
    code := some [0x2A]
    codeSize := 1
    maxStack := 8
    clauseCount := 0
    options := 0x10
    localsCount := 0
    locals := none }
  flags := 0
  nativeEntry := 0
  nativeSize := 0

/-- A strategy under which two methods are compiled when one is to be. -/
def compilesNeighbour : Strategy Ledger World where
  name := "Neighbour"
  needsCapture _ _ := .done (.ok true)
  forceCompile _ method :=
    .compile (returning (method + 8)) fun _ => .compile (returning method) fun _ => .done (.ok ())

/-- A plan for a module whose methods have handles by their tokens. -/
def neighbourPlan : Plan Ledger World where
  context := {
    settings := {}
    environment := default
    packed := ⟨[]⟩
    host := {
      moduleHandle := 0x10
      imageBase := 0
      methodHandle := fun token => .done (.ok (some (token.value.toNat * 16)))
      invoke := fun _ => .done (.ok ()) }
    routines := {
      reset := fun _ => .done (.ok ())
      doPrestub := fun _ => .done (.ok 0)
      isUnboxingStub := fun _ => .done (.ok false)
      wrappedMethod := fun method => .done (.ok method) } }
  strategy := compilesNeighbour
  loader := {
    load := fun _ world => .ok ⟨[]⟩ world
    loadBytes := fun _ world => .ok ⟨[]⟩ world }
  parser := .standard
  input := ""

/-- A session on the module, with the compiler's interface redirected. -/
def hooked : SweepState Ledger World where
  patches := ⟨.x64, [], false⟩
  session := Session.start
    { kind := .table
      site := { address := 0, found := [], redirected := [], routine := 0x5000 }
      slot := { owner := 1, layout := .v40, replaced := 0x5000 }
      installed := true }
    0x10 { resolver := .identity, flavor := .v45, architecture := .x64 }
    { Process.idle .fresh ⟨some ⟨[]⟩, .ofMemory ⟨⟨[]⟩, [], []⟩⟩ with
      methodSlot := some { owner := 1, layout := .v40, replaced := 0x5000 }
      sessionHeld := true }

/-- The neighbour that is compiled with the row is not captured, and the row is, once. -/
theorem captureRow_exactlyOnce_neighbour :
    ∃ body final, CapturesOnce neighbourPlan 3 hooked body ∧
      neighbourPlan.captureRow 3 hooked = .ok true final ∧
      final.output = some ⟨[⟨3, body⟩]⟩ ∧ AtRest final.session := by
  have keeps : compilesNeighbour.KeepsOutput neighbourPlan.context :=
    ⟨fun _ _ => trivial, fun _ _ _ _ => trivial, fun _ _ _ => trivial⟩
  have records : Records neighbourPlan hooked.session := ⟨_, rfl, rfl⟩
  obtain ⟨final, captured⟩ :
      ∃ final, neighbourPlan.captureRow 3 hooked = .ok true final := ⟨_, rfl⟩
  obtain ⟨-, whenCaptured, -, rest⟩ := captureRow_exactlyOnce keeps ledger_replacesOrKeeps 3 hooked
    records ⟨rfl, rfl, rfl, rfl⟩
  obtain ⟨body, after, captures, ⟨ledger, there, accepted⟩, left⟩ := whenCaptured final captured
  rw [captured] at rest
  cases there
  cases accepted
  exact ⟨body, final, captures, captured, left, rest⟩

end

end CilCapture.Sweep
