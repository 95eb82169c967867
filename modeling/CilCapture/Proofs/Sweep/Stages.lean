import CilCapture.Proofs.Sweep.TakeDown

/-!
# The stages of a sweep

A sweep puts up patches and redirect, captures, takes both down again, and only then finishes its
output (`run_eq`); so it comes to finishing exactly when all stages before succeed
(`untilFinish_eq_ok`). Finishing takes the output module out of its slot, has the packer's code
removed, fills the signatures and saves the module, and ends with the first of them that fails
(`finish_eq`).

The lemmas are equations: the sweep is brought into the form of its stages, and success and failure
of each is told by the stage. Later modules state what they have to say of a run by these and do not
open the run itself.
-/

namespace CilCapture.Sweep

open Capture Compile Engine Hook Memory

variable {M W : Type}

/-! ## Taken down -/

/-- Putting a session to rest leaves its slots alone. -/
theorem slotOf_idle (kind : HookKind) (session : Session M W) :
    slotOf kind session.idle.process = slotOf kind session.process := by
  cases kind <;> rfl

section

variable [AddressSpace W]

/-- A redirect that was removed is not installed, and its slot is empty. -/
theorem removed_of_unhook {session after : Session M W}
    (unhooked : session.unhook = (.ok (), after)) :
    after.redirect.installed = false ∧ slotOf after.redirect.kind after.process = none := by
  unfold Session.unhook at unhooked
  rcases session.redirect.remove_cases session.process with
    ⟨-, refused⟩ | ⟨-, ⟨world, -, removed⟩ | ⟨fault, world, -, failed⟩⟩
  · rw [refused] at unhooked
    cases unhooked
  · rw [removed] at unhooked
    cases unhooked
    exact ⟨rfl, (slotOf_idle _ _).trans (slotOf_setSlot _ _ _)⟩
  · rw [failed] at unhooked
    cases unhooked

/-- Patches that were restored are not applied. -/
theorem unapplied_of_restore {set : PatchSet} {world : W} {after : PatchSet × W}
    (restored : set.restore world = (.ok (), after)) : after.1.applied = false := by
  unfold PatchSet.restore at restored
  split at restored
  next => cases restored
  next =>
    split at restored
    next unapplied =>
      cases restored
      simpa using unapplied
    next =>
      obtain ⟨-, rfl⟩ := Prod.mk.inj restored
      rfl

/-- When taking down succeeds, neither redirect nor patches are in place. -/
theorem down_of_takeDown {swept down : SweepState M W}
    (takenDown : Plan.takeDown swept = .ok () down) :
    down.session.redirect.installed = false ∧
      slotOf down.session.redirect.kind down.session.process = none ∧
      down.patches.applied = false := by
  obtain ⟨unhooked, between, attempted, takenDown⟩ := run_bind_eq_ok.mp takenDown
  obtain ⟨restored, after, attemptedRestore, takenDown⟩ := run_bind_eq_ok.mp takenDown
  obtain ⟨_, _, settled, last⟩ := run_bind_eq_ok.mp takenDown
  obtain ⟨rfl, rfl⟩ := settle_eq_ok settled
  obtain ⟨rfl, rfl⟩ := settle_eq_ok last
  have unhook := attempt_ok_iff.mp attempted
  have restore := attempt_ok_iff.mp attemptedRestore
  unfold onSession at unhook
  split at unhook
  next session done =>
    cases unhook
    obtain ⟨removed, withdrawn⟩ := removed_of_unhook done
    unfold onPatches at restore
    rcases result : PatchSet.restore swept.patches session.process.world with
      ⟨ended, patches, world⟩
    dsimp only at restore
    rw [result] at restore
    cases ended with
    | error fault => cases restore
    | ok =>
      cases restore
      exact ⟨removed, (slotOf_withWorld _ _ _).trans withdrawn, unapplied_of_restore result⟩
  next => cases unhook

end

variable [ModuleStore M W] [Introspection W] [NativeCode W]

namespace Plan

/-! ## Stages -/

section

variable [AddressSpace W]

/-- The file of the packed module, taken before or after its static constructor has run. -/
def image (plan : Plan M W) : SweepStep M W Bytes := do
  perform (plan.strategy.preInitialize plan.context)
  let constructor_ ← settle (selectConstructor plan.context.packed)
  if constructor_.isNone then notice .noStaticConstructor
  if plan.context.settings.snapshotFirst then do
    let image ← plan.snapshot
    plan.runConstructor constructor_
    return image
  else do
    plan.runConstructor constructor_
    plan.snapshot

/-- What comes before the packer's work on the loaded snapshot. -/
def load (plan : Plan M W) : SweepStep M W Unit := do
  let image ← plan.image
  let output ← onWorld (plan.loader.loadBytes image)
  setOutput (some output)

/-- What is attempted while patches and redirect are in place. -/
def sweep (plan : Plan M W) : SweepStep M W Summary := do
  plan.bringUp
  plan.captureAll

/-- All that comes before the output is finished. -/
def untilFinish (plan : Plan M W) : SweepStep M W Summary := do
  onPatches PatchSet.apply
  hookOrRestore
  let swept ← attempt plan.sweep
  let takenDown ← attempt takeDown
  let summary ← settle swept
  settle takenDown
  return summary

end

/-- The output module without the packer's own code, if that is to be removed. -/
def strip (plan : Plan M W) (output : M) : SweepStep M W M :=
  if plan.context.settings.removesRuntimeSupport then
    perform (plan.strategy.removeRuntimeSupport plan.context output)
  else pure output

/-- Puts the finished module back, written if anything was captured. -/
def save (plan : Plan M W) (summary : Summary) (module_ : M) : SweepStep M W Summary := do
  if summary.captured = 0 then
    setOutput (some module_)
    return summary
  else
    let path := plan.context.settings.outputPath plan.input
    onWorld (ModuleStore.write path plan.context.settings.writeOptions module_)
    setOutput (some module_)
    return { summary with output := some path }

end Plan

/-- The sweep with another module in the slot, or none. -/
def SweepState.withOutput (state : SweepState M W) (output : Option M) : SweepState M W :=
  { state with session := state.session.setOutput output }

section

variable [AddressSpace W]

/-- A run is all that comes before finishing, and the finishing of its summary. -/
theorem run_eq (plan : Plan M W) : plan.run = plan.untilFinish >>= plan.finish := by
  simp only [Plan.run, Plan.untilFinish, Plan.sweep, bind_assoc, pure_bind]

/-- Bringing up is loading, and then what the packer does on what is loaded. -/
theorem bringUp_eq (plan : Plan M W) :
    plan.bringUp = plan.load >>= fun _ =>
      perform (plan.strategy.postInitialize plan.context) := by
  simp only [Plan.bringUp, Plan.load, Plan.image, bind_assoc]
  congr 1
  funext _
  congr 1
  funext constructor_
  split <;> split <;> simp only [bind_assoc, pure_bind]

/-! ## What the stages come to -/

/-- A sweep comes to finishing exactly when every stage before succeeds, one after the other. -/
theorem untilFinish_eq_ok {plan : Plan M W} {start down : SweepState M W} {summary : Summary} :
    plan.untilFinish start = .ok summary down ↔
      ∃ patched up swept, onPatches PatchSet.apply start = .ok () patched ∧
        Plan.hookOrRestore patched = .ok () up ∧ plan.sweep up = .ok summary swept ∧
        Plan.takeDown swept = .ok () down := by
  constructor
  · intro ended
    obtain ⟨_, patched, applied, ended⟩ := run_bind_eq_ok.mp ended
    obtain ⟨_, up, hooked, ended⟩ := run_bind_eq_ok.mp ended
    obtain ⟨result, swept, attempted, ended⟩ := run_bind_eq_ok.mp ended
    obtain ⟨takenDown, after, attemptedDown, ended⟩ := run_bind_eq_ok.mp ended
    obtain ⟨_, _, settled, last⟩ := run_bind_eq_ok.mp ended
    obtain ⟨rfl, rfl⟩ := settle_eq_ok settled
    obtain ⟨_, _, settledDown, returned⟩ := run_bind_eq_ok.mp last
    obtain ⟨rfl, rfl⟩ := settle_eq_ok settledDown
    cases returned
    exact ⟨patched, up, swept, applied, hooked, attempt_ok_iff.mp attempted,
      attempt_ok_iff.mp attemptedDown⟩
  · rintro ⟨patched, up, swept, applied, hooked, captured, takenDown⟩
    exact (run_bind_of_ok applied).trans <| (run_bind_of_ok hooked).trans <|
      (run_bind_of_ok (attempt_ok_iff.mpr captured)).trans <|
      run_bind_of_ok (attempt_ok_iff.mpr takenDown)

end

/-- What is done with a module that is out of its slot and was stripped. -/
def Plan.complete (plan : Plan M W) (summary : Summary) (stripped : M) : SweepStep M W Summary :=
  match fillSignatures stripped with
  | .error cause _ => throw cause
  | .ok _ module_ => plan.save summary module_

/-- Finishing takes the output module out, strips it and completes it. From the first of these on
its slot is empty. -/
theorem finish_bind (plan : Plan M W) (summary : Summary) :
    plan.finish summary = Plan.takeOutput >>= fun output =>
      plan.strip output >>= plan.complete summary := by
  unfold Plan.finish Plan.strip
  dsimp only
  congr 1
  funext output
  split
  next => rfl
  next => rfl

omit [ModuleStore M W] [Introspection W] [NativeCode W] in
/-- The output module is taken out of its slot, or the slot is empty already. -/
theorem takeOutput_eq (state : SweepState M W) :
    Plan.takeOutput state =
      match state.output with
      | none => .error .noOutputModule state
      | some output => .ok output (state.withOutput none) := by
  refine (run_bind_of_ok rfl).trans ?_
  cases state.output <;> rfl

/-- Finishing ends with the first of its steps that fails, or with the module in its slot again. -/
theorem finish_eq (plan : Plan M W) (summary : Summary) (state : SweepState M W) :
    plan.finish summary state =
      match state.output with
      | none => .error .noOutputModule state
      | some output =>
        match plan.strip output (state.withOutput none) with
        | .error cause after => .error cause after
        | .ok stripped ready =>
          match fillSignatures stripped with
          | .error cause _ => .error cause ready
          | .ok _ module_ => plan.save summary module_ ready := by
  have taken := takeOutput_eq state
  rw [finish_bind]
  cases present : state.output with
  | none =>
    rw [present] at taken
    exact run_bind_eq_error.mpr (.inl taken)
  | some output =>
    rw [present] at taken
    rw [run_bind_of_ok taken]
    dsimp only
    cases removed : plan.strip output (state.withOutput none) with
    | error cause after => exact run_bind_eq_error.mpr (.inl removed)
    | ok stripped ready =>
      rw [run_bind_of_ok removed]
      dsimp only [Plan.complete]
      cases fillSignatures stripped <;> rfl

omit [ModuleStore M W] in
/-- Stripping removes the packer's code unless one of the settings keeps it. -/
theorem strip_eq_ok {plan : Plan M W} {output stripped : M} {state ready : SweepState M W}
    (done : plan.strip output state = .ok stripped ready) :
    if plan.context.settings.keepAll = false ∧ plan.context.settings.keepRuntime = false then
      perform (plan.strategy.removeRuntimeSupport plan.context output) state = .ok stripped ready
    else stripped = output ∧ ready = state := by
  unfold Plan.strip Settings.removesRuntimeSupport at done
  cases all : plan.context.settings.keepAll <;>
    cases runtime : plan.context.settings.keepRuntime <;>
    rw [all, runtime] at done
  · rw [if_pos ⟨rfl, rfl⟩]
    exact done
  all_goals
    cases done
    simp

omit [ModuleStore M W] in
/-- What is done to the output leaves everything down. -/
theorem strip_rig (plan : Plan M W) (output : M) (state : SweepState M W) :
    (finalState (plan.strip output state)).patches = state.patches ∧
      (finalState (plan.strip output state)).session.redirect = state.session.redirect ∧
      (finalState (plan.strip output state)).session.process.wiring =
        state.session.process.wiring := by
  unfold Plan.strip
  split
  next =>
    refine ⟨?_, ?_, look_performed steady_wiring _ state⟩ <;>
      unfold perform onProcess <;>
      cases Process.perform _ state.session.process <;> rfl
  next => exact ⟨rfl, rfl, rfl⟩

end CilCapture.Sweep
