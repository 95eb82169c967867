import CilCapture.Proofs.Capture.Accounting
import CilCapture.Proofs.Sweep.Rows
import CilCapture.Proofs.Sweep.Writing

/-!
# The output of a failed sweep

A sweep that fails after its snapshot was loaded still has the output module in its slot, with every
body that was installed, as long as finishing has not begun: nothing that comes before takes it out.
Finishing does, and puts it back last, so that it is gone with whichever step of finishing fails
(`failedRun_output`).

The slot is followed through the stages as an invariant of its own (`Holding`), beside the one that
the sweep is ready for its next row. The bodies that are in it are told by the rows
(`countRows_installs`).

Every exit of a failing run is in the statement, with what is in the slot then. After an exit of
finishing the slot is empty, bodies that were captured being lost; `failedWrite_losesOutput` is a
run that ends so.
-/

namespace CilCapture.Sweep

open Capture Compile Engine Hook Memory

variable {M W : Type}

/-- A step on the session ends with the session it leaves. -/
theorem finalState_onSession {α : Type} (step : Session M W → Except Fault α × Session M W)
    (state : SweepState M W) :
    finalState (onSession step state) = { state with session := (step state.session).2 } := by
  unfold onSession
  rcases step state.session with ⟨result, session⟩
  cases result <;> rfl

/-- A step on the patches ends with the patches and the memory it leaves. -/
theorem finalState_onPatches
    (step : PatchSet → Workspace M W → Except Fault Unit × PatchSet × Workspace M W)
    (state : SweepState M W) :
    finalState (onPatches step state) =
      let stepped := step state.patches state.session.process.world
      state.repatched stepped.2.1 stepped.2.2 := by
  unfold onPatches
  rcases step state.patches state.session.process.world with ⟨result, patches, world⟩
  cases result <;> rfl

/-- Both parts of taking down are attempted, so what each of them keeps is kept. -/
theorem keeps_takeDown [AddressSpace W] {holds : SweepState M W → Prop}
    (unhooking : Keeps holds (onSession Session.unhook))
    (restoring : Keeps holds (onPatches PatchSet.restore)) : Keeps holds Plan.takeDown :=
  unhooking.attempt.bind fun unhooked => restoring.attempt.bind fun restored =>
    (keeps_settle unhooked).bind fun _ => keeps_settle restored

/-! ## Ready for the next row -/

section

variable [NativeCode W] [CodeSpace W] {plan : Plan M W} {state after : SweepState M W}

/-- Whether a sweep is ready depends on filter and recorder alone. -/
theorem Ready.congr (ready : Ready plan state)
    (same_filter : after.session.process.filter = state.session.process.filter)
    (same_client : after.session.process.client = state.session.process.client) :
    Ready plan after := by
  obtain ⟨rest, records⟩ := ready
  refine ⟨?_, by unfold Records; rwa [same_filter]⟩
  constructor
  case method_eq => exact (congrArg Filter.targetMethod same_filter).trans rest.method_eq
  case row_eq => exact (congrArg Recorder.targetRow same_client).trans rest.row_eq
  case staged_eq => exact (congrArg Recorder.staged same_client).trans rest.staged_eq
  case stashed_eq => exact (congrArg Filter.stashed same_filter).trans rest.stashed_eq

/-- A sweep that is idled once more is ready still. -/
theorem Ready.idled (ready : Ready plan state)
    (filter_eq : after.session.process.filter =
      { state.session.process.filter with targetMethod := 0 })
    (client_eq : after.session.process.client = state.session.process.client.idle) :
    Ready plan after := by
  obtain ⟨rest, records⟩ := ready
  refine ⟨?_, by unfold Records; rwa [filter_eq]⟩
  constructor
  case method_eq => exact congrArg Filter.targetMethod filter_eq
  case row_eq => exact congrArg Recorder.targetRow client_eq
  case staged_eq => exact (congrArg Recorder.staged client_eq).trans rest.staged_eq
  case stashed_eq => exact (congrArg Filter.stashed filter_eq).trans rest.stashed_eq

/-- Patching leaves a session at rest and recording. -/
theorem ready_onPatches
    (step : PatchSet → Workspace M W → Except Fault Unit × PatchSet × Workspace M W) :
    Keeps (Ready plan) (onPatches step) := by
  intro state ready
  rw [finalState_onPatches]
  exact ready.congr rfl rfl

theorem ready_setOutput (output : Option M) : Keeps (Ready plan) (setOutput output) :=
  fun _ ready => ready.congr rfl rfl

theorem ready_notice (report : Notice) : Keeps (Ready plan) (notice report) :=
  fun _ ready => ready.congr rfl rfl

/-- A step of the world leaves a session at rest and recording. -/
theorem ready_onWorld {α : Type} (step : EStateM Fault W α) :
    Keeps (Ready plan) (onWorld step) := by
  intro state ready
  unfold onWorld onProcess Process.onWorld Workspace.onWorld
  cases step state.session.process.world.world <;> exact ready.congr rfl rfl

variable [AddressSpace W]

/-- Hooking puts the session to rest by itself. -/
theorem ready_hook : Keeps (Ready plan) (onSession Session.hook) := by
  intro state ready
  obtain ⟨filter_eq, client_eq⟩ := hook_frame state.session
  rw [finalState_onSession]
  exact ready.idled filter_eq client_eq

/-- Unhooking puts it to rest if it succeeds and leaves it at rest if not. -/
theorem ready_unhook : Keeps (Ready plan) (onSession Session.unhook) := by
  intro state ready
  rw [finalState_onSession]
  rcases unhook_cases state.session with ⟨-, filter_eq, client_eq⟩ | ⟨-, same_filter, same_client⟩
  · exact ready.idled filter_eq client_eq
  · exact ready.congr same_filter same_client

/-- Hooking keeps the sweep ready, also when it fails and the patches are restored. -/
theorem ready_hookOrRestore : Keeps (Ready plan) Plan.hookOrRestore := by
  unfold Plan.hookOrRestore
  refine ready_hook.attempt.bind fun hooked => ?_
  cases hooked with
  | ok done => exact keeps_pure _
  | error cause =>
    refine (ready_onPatches _).attempt.bind fun restored => ?_
    cases restored with
    | ok done => exact keeps_throw cause
    | error left => exact (ready_notice _).bind fun _ => keeps_throw cause

/-- Taking down keeps the sweep ready. -/
theorem ready_takeDown : Keeps (Ready plan) Plan.takeDown :=
  keeps_takeDown ready_unhook (ready_onPatches _)

omit [AddressSpace W] in
variable [Introspection W] in
/-- Nothing is armed, so that whatever is carried out the recorder stays as it is. -/
theorem ready_perform {α : Type} (routine : Routine (Workspace M W) α) :
    Keeps (Ready plan) (perform routine) := by
  intro state ready
  have native : NativeKeeps fun _ : Workspace M W => True :=
    ⟨fun _ _ _ => trivial, fun _ _ _ _ _ => trivial⟩
  obtain ⟨workspace, final_eq, -⟩ :=
    perform_atRest native (Errand.keeps_true routine) ready.rest trivial
  rw [final_eq]
  exact ready.congr rfl rfl

/-! ## Loading -/

variable [Introspection W]

omit [AddressSpace W] in
/-- The packer's constructor may have methods compiled, and leaves the session at rest all the same.
-/
theorem ready_runConstructor (constructor_ : Option Token) :
    Keeps (Ready plan) (plan.runConstructor constructor_) := by
  cases constructor_ with
  | none => exact keeps_pure ()
  | some token => exact ready_perform _

variable [ModuleStore M W]

/-- Making the image keeps the sweep ready, before or after the packer's constructor. -/
theorem ready_image : Keeps (Ready plan) plan.image := by
  have snapshot : Keeps (Ready plan) plan.snapshot := keeps_get.bind fun _ => keeps_settle _
  unfold Plan.image
  refine (ready_perform _).bind fun _ => ?_
  refine (keeps_settle _).bind fun constructor_ => ?_
  extract_lets proceed
  have proceeds (done : Unit) : Keeps (Ready plan) (proceed done) := by
    dsimp only [proceed]
    split
    next =>
      refine snapshot.bind fun image => ?_
      exact (ready_runConstructor constructor_).bind fun _ => keeps_pure image
    next => exact (ready_runConstructor constructor_).bind fun _ => snapshot
  split
  next => exact (ready_notice _).bind proceeds
  next => exact proceeds ()

/-- Loading the image keeps the sweep ready. -/
theorem ready_load : Keeps (Ready plan) plan.load :=
  ready_image.bind fun _ => (ready_onWorld _).bind fun _ => ready_setOutput _

end

/-- Once the snapshot is loaded there is an output module. -/
theorem output_of_load [AddressSpace W] [Introspection W] [NativeCode W] [ModuleStore M W]
    {plan : Plan M W} {up loaded : SweepState M W} (loading : plan.load up = .ok () loaded) :
    ∃ output, loaded.output = some output := by
  obtain ⟨image, _, -, loading⟩ := run_bind_eq_ok.mp loading
  obtain ⟨output, _, -, placing⟩ := run_bind_eq_ok.mp loading
  cases placing
  exact ⟨output, rfl⟩

/-! ## The slot -/

/-- A sweep with this output module, or with none. -/
def Holding (output : Option M) (state : SweepState M W) : Prop := state.output = output

/-- A step of the world leaves the output module where it is. -/
theorem holding_onWorld {α : Type} (output : Option M) (step : EStateM Fault W α) :
    Keeps (Holding output) (onWorld step) := by
  intro state here
  unfold onWorld onProcess Process.onWorld Workspace.onWorld
  cases step state.session.process.world.world <;> exact here

section

variable [AddressSpace W]

/-- Writing to memory leaves the output module alone. -/
theorem output_written {start world : Workspace M W} (written : Written start world) :
    world.output = start.output := by
  obtain ⟨stores, rfl⟩ := written
  induction stores generalizing start with
  | nil => rfl
  | cons store stores ih =>
    rw [writeEach_cons, ih]
    exact output_onWorld start.output _ start rfl

/-- Unhooking writes to memory or does nothing to it. -/
theorem written_unhook (session : Session M W) :
    Written session.process.world session.unhook.2.process.world := by
  unfold Session.unhook
  rcases session.redirect.remove_cases session.process with
    ⟨-, refused⟩ | ⟨-, ⟨world, wrote, removed⟩ | ⟨fault, world, wrote, failed⟩⟩
  · rw [refused]
    exact .refl _
  · rw [removed]
    refine .of_write wrote ?_
    show world = (setSlot session.redirect.kind none { session.process with world }).world
    rw [world_setSlot]
  · rw [failed]
    exact .of_write wrote rfl

/-- Restoring patches writes to memory or does nothing to it. -/
theorem written_restore {σ : Type} [AddressSpace σ] (set : PatchSet) (world : σ) :
    Written world (set.restore world).2.2 := by
  rcases set.restore_cases world with same | restored
  · rw [same]
    exact .refl _
  · rw [restored]
    exact ⟨_, rfl⟩

/-- Taking down leaves the output module in its slot, whatever it comes to. -/
theorem holding_takeDown (output : Option M) :
    Keeps (Holding output) (Plan.takeDown (M := M) (W := W)) := by
  apply keeps_takeDown
  · intro state here
    rw [finalState_onSession]
    exact (output_written (written_unhook state.session)).trans here
  · intro state here
    rw [finalState_onPatches]
    exact (output_written (written_restore _ _)).trans here

end

section

variable [Introspection W] [NativeCode W] {plan : Plan M W}

/-- At rest, the output module stays with what stores no other one. -/
theorem output_performed {α : Type} {routine : Routine (Workspace M W) α} {output : Option M}
    (keeps : Capture.KeepsOutput output routine) {state : SweepState M W}
    (rest : AtRest state.session) (here : state.output = output) :
    (finalState (perform routine state)).output = output := by
  obtain ⟨workspace, final_eq, there⟩ :=
    perform_atRest (output_native output) (keeps_of_keepsOutput keeps) rest here
  rw [final_eq]
  exact there

end

/-! ## Finishing -/

section

variable [Introspection W] [NativeCode W] [ModuleStore M W] {plan : Plan M W}

omit [Introspection W] [NativeCode W] in
/-- A module that could not be written is not put back. -/
theorem save_failed {summary : Summary} {module_ : M} {state final : SweepState M W}
    {cause : Fault} (failed : plan.save summary module_ state = .error cause final) :
    final.output = state.output := by
  unfold Plan.save at failed
  split at failed
  next => cases failed
  next =>
    rcases run_bind_eq_error.mp failed with refused | ⟨_, written, -, rest⟩
    · exact (holding_onWorld state.output _).of_error refused rfl
    · cases rest

/-- Whichever step of finishing fails, the output module is gone. -/
theorem finish_failed {summary : Summary} {state final : SweepState M W} {cause : Fault}
    (removing : ∀ output,
      Capture.KeepsOutput none (plan.strategy.removeRuntimeSupport plan.context output))
    (rest : AtRest state.session) (failed : plan.finish summary state = .error cause final) :
    final.output = none := by
  rw [finish_eq] at failed
  cases present : state.output with
  | none =>
    rw [present] at failed
    cases failed
    exact present
  | some output =>
    have emptied : (finalState (plan.strip output (state.withOutput none))).output = none := by
      unfold Plan.strip
      split
      next => exact output_performed (removing output) (rest.withWorkspace _) rfl
      next => rfl
    rw [present] at failed
    dsimp only at failed
    cases stripping : plan.strip output (state.withOutput none) with
    | error fault after =>
      rw [stripping] at failed emptied
      cases failed
      exact emptied
    | ok stripped ready =>
      rw [stripping] at failed emptied
      dsimp only at failed
      cases filling : fillSignatures stripped with
      | error fault after =>
        rw [filling] at failed
        cases failed
        exact emptied
      | ok count module_ =>
        rw [filling] at failed
        exact (save_failed failed).trans emptied

variable [AddressSpace W]

/-- A sweep that fails before finishing fails in what is attempted, or in taking down. -/
theorem untilFinish_eq_error {start patched up final : SweepState M W} {cause : Fault}
    (applied : onPatches PatchSet.apply start = .ok () patched)
    (hooked : Plan.hookOrRestore patched = .ok () up)
    (failed : plan.untilFinish start = .error cause final) :
    (∃ swept, plan.sweep up = .error cause swept ∧ finalState (Plan.takeDown swept) = final) ∨
      ∃ summary swept, plan.sweep up = .ok summary swept ∧
        Plan.takeDown swept = .error cause final := by
  unfold Plan.untilFinish at failed
  rw [run_bind_of_ok applied, run_bind_of_ok hooked] at failed
  cases sweeping : plan.sweep up with
  | error fault swept =>
    obtain ⟨takenDown, attempted⟩ := attempt_eq_ok (Plan.takeDown (M := M) (W := W)) swept
    rw [run_bind_of_ok (attempt_error_iff.mpr sweeping), run_bind_of_ok attempted] at failed
    cases failed
    exact .inl ⟨swept, rfl, rfl⟩
  | ok summary swept =>
    rw [run_bind_of_ok (attempt_ok_iff.mpr sweeping)] at failed
    cases takingDown : Plan.takeDown swept with
    | error fault down =>
      rw [run_bind_of_ok (attempt_error_iff.mpr takingDown)] at failed
      cases failed
      exact .inr ⟨summary, swept, rfl, takingDown⟩
    | ok done down =>
      rw [run_bind_of_ok (attempt_ok_iff.mpr takingDown)] at failed
      cases failed

/-- Once the snapshot is loaded, what is left to attempt is the packer's own work and capturing. -/
theorem sweep_of_load {up loaded : SweepState M W} (loading : plan.load up = .ok () loaded) :
    plan.sweep up = (perform (plan.strategy.postInitialize plan.context) >>= fun _ =>
      plan.captureAll) loaded := by
  unfold Plan.sweep
  rw [bringUp_eq, bind_assoc]
  exact run_bind_of_ok loading

/-- Only the packer's own work can fail then: a method that cannot be captured is counted. -/
theorem initialized_of_sweep_error {up loaded swept : SweepState M W} {cause : Fault}
    (loading : plan.load up = .ok () loaded) (failed : plan.sweep up = .error cause swept) :
    finalState (perform (plan.strategy.postInitialize plan.context) loaded) = swept := by
  rw [sweep_of_load loading] at failed
  rcases run_bind_eq_error.mp failed with initializing | ⟨_, _, -, capturing⟩
  · exact congrArg finalState initializing
  · cases capturing

variable [CodeSpace W]

/-- Capturing stores the bodies of the captured rows in the module that bringing up has left. -/
theorem sweep_installs (keeps : plan.strategy.KeepsOutput plan.context) (atomic : ReplacesOrKeeps M)
    {up loaded swept : SweepState M W} {summary : Summary} (ready : Ready plan loaded)
    (loading : plan.load up = .ok () loaded) (sweeping : plan.sweep up = .ok summary swept) :
    let initialized := finalState (perform (plan.strategy.postInitialize plan.context) loaded)
    Ready plan swept ∧ ∃ bodies, Installs bodies initialized.output swept.output ∧
      (bodies.map (·.row)).Sublist (List.range' 1 (ModuleStore.methodCount plan.context.packed)) ∧
      summary.captured = bodies.length := by
  intro initialized
  have ready_initialized : Ready plan initialized := ready_perform _ loaded ready
  rw [sweep_of_load loading] at sweeping
  obtain ⟨_, brought, initializing, capturing⟩ := run_bind_eq_ok.mp sweeping
  have brought_eq : initialized = brought := congrArg finalState initializing
  rw [← brought_eq] at capturing
  cases capturing
  obtain ⟨ready_swept, bodies, installs, sublist, counted⟩ :=
    countRows_installs keeps atomic _ .empty ready_initialized
  exact ⟨ready_swept, bodies, installs, sublist, counted.trans (Nat.zero_add _)⟩

/-- Of a sweep that fails after its snapshot was loaded the output module, with the bodies of all
rows that were captured, is in its slot still, as long as it fails before finishing. Whichever step
of finishing fails, there is no output module left. -/
theorem failedRun_output (keeps : plan.strategy.KeepsOutput plan.context)
    (atomic : ReplacesOrKeeps M)
    (removing : ∀ output,
      Capture.KeepsOutput none (plan.strategy.removeRuntimeSupport plan.context output))
    {start patched up loaded final : SweepState M W} {cause : Fault} (ready : Ready plan start)
    (applied : onPatches PatchSet.apply start = .ok () patched)
    (hooked : Plan.hookOrRestore patched = .ok () up) (loading : plan.load up = .ok () loaded)
    (failed : plan.run start = .error cause final) :
    let initialized := finalState (perform (plan.strategy.postInitialize plan.context) loaded)
    ∃ output, loaded.output = some output ∧
      (Capture.KeepsOutput (some output) (plan.strategy.postInitialize plan.context) →
        initialized.output = some output) ∧
      (plan.sweep up = .error cause initialized ∧ final.output = initialized.output ∨
        ∃ summary swept bodies, plan.sweep up = .ok summary swept ∧
          Installs bodies initialized.output swept.output ∧
          (bodies.map (·.row)).Sublist
            (List.range' 1 (ModuleStore.methodCount plan.context.packed)) ∧
          summary.captured = bodies.length ∧
          (Plan.takeDown swept = .error cause final ∧ final.output = swept.output ∨
            ∃ down, Plan.takeDown swept = .ok () down ∧ down.output = swept.output ∧
              plan.finish summary down = .error cause final ∧ final.output = none)) := by
  intro initialized
  have ready_patched := (ready_onPatches PatchSet.apply).of_ok applied ready
  have ready_up := ready_hookOrRestore.of_ok hooked ready_patched
  have ready_loaded := ready_load.of_ok loading ready_up
  obtain ⟨output, loaded_eq⟩ := output_of_load loading
  refine ⟨output, loaded_eq, fun kept => output_performed kept ready_loaded.rest loaded_eq, ?_⟩
  rw [run_eq] at failed
  rcases run_bind_eq_error.mp failed with early | ⟨summary, down, before, finishing⟩
  · rcases untilFinish_eq_error applied hooked early with
      ⟨swept, sweeping, down_eq⟩ | ⟨summary, swept, sweeping, takingDown⟩
    · have swept_eq : initialized = swept := initialized_of_sweep_error loading sweeping
      subst swept_eq down_eq
      exact .inl ⟨sweeping, holding_takeDown _ initialized rfl⟩
    · have kept := (holding_takeDown swept.output).of_error takingDown rfl
      obtain ⟨-, bodies, installs, sublist, counted⟩ :=
        sweep_installs keeps atomic ready_loaded loading sweeping
      exact .inr ⟨summary, swept, bodies, sweeping, installs, sublist, counted,
        .inl ⟨takingDown, kept⟩⟩
  · obtain ⟨_, _, swept, again, hooked', sweeping, takingDown⟩ := untilFinish_eq_ok.mp before
    cases applied.symm.trans again
    cases hooked.symm.trans hooked'
    obtain ⟨ready_swept, bodies, installs, sublist, counted⟩ :=
      sweep_installs keeps atomic ready_loaded loading sweeping
    have kept := (holding_takeDown swept.output).of_ok takingDown rfl
    have ready_down := ready_takeDown.of_ok takingDown ready_swept
    exact .inr ⟨summary, swept, bodies, sweeping, installs, sublist, counted,
      .inr ⟨down, takingDown, kept, finishing, finish_failed removing ready_down.rest finishing⟩⟩

end

/-! ## Rehearsals -/

section

open Rehearsal

/-- The sweep of the image with its redirect in place. -/
def hookedImage : SweepState M World :=
  finalState (Plan.hookOrRestore (finalState (onPatches PatchSet.apply imageAtRest)))

/-- The image has no patches, and its redirect can be put in place. -/
theorem imageAtRest_hooked : ∃ patched : SweepState M World,
    onPatches PatchSet.apply imageAtRest = .ok () patched ∧
      Plan.hookOrRestore patched = .ok () hookedImage :=
  ⟨_, rfl, rfl⟩

/-- A strategy that cannot remove the packer's code. -/
def refusesRemoval : Strategy Ledger World :=
  { compilesOnce with removeRuntimeSupport := fun _ _ => .done (.error (.other "in use")) }

/-- A ledger of one row. -/
def oneEntry : Ledger := ⟨[⟨1, ⟨8, false, none, [], []⟩⟩]⟩

set_option maxRecDepth 100000 in
/-- The packer's code cannot be removed here, so the run fails after the module was taken out, and
the slot is empty. -/
theorem failedRun_output_refused :
    let plan := snapshotPlan refusesRemoval oneEntry
    ∃ patched up loaded final : SweepState Ledger World,
      onPatches PatchSet.apply imageAtRest = .ok () patched ∧
      Plan.hookOrRestore patched = .ok () up ∧ plan.load up = .ok () loaded ∧
      plan.run imageAtRest = .error (.other "in use") final ∧
      ∃ (swept : SweepState Ledger World) (bodies : List StagedBody),
        Installs bodies (some oneEntry) swept.output ∧ bodies.length = 1 ∧
          (∃ down, Plan.takeDown swept = .ok () down ∧ down.output = swept.output) ∧
          final.output = none := by
  intro plan
  obtain ⟨patched, applied, hooked⟩ := imageAtRest_hooked (M := Ledger)
  have loading : resultOf (plan.load hookedImage) = .ok () := by decide +kernel
  have sweeping : resultOf (plan.sweep hookedImage) = .ok ⟨1, 0, 0, none⟩ := by decide +kernel
  have takingDown : resultOf (Plan.takeDown (finalState (plan.sweep hookedImage))) = .ok () := by
    decide +kernel
  have failed : resultOf (plan.run imageAtRest) = .error (.other "in use") := by decide +kernel
  have loaded : (finalState (plan.load hookedImage)).output = some oneEntry := by decide +kernel
  refine ⟨patched, hookedImage, _, _, applied, hooked, eq_resultIn loading, eq_resultIn failed, ?_⟩
  have keeps : plan.strategy.KeepsOutput plan.context :=
    ⟨fun _ _ => trivial, fun _ _ _ => trivial, fun _ _ _ => trivial⟩
  have removing (output : Ledger) :
      Capture.KeepsOutput none (plan.strategy.removeRuntimeSupport plan.context output) := trivial
  have ready : Ready plan imageAtRest := ⟨⟨rfl, rfl, rfl, rfl⟩, _, rfl, rfl⟩
  obtain ⟨output, same, kept, ended⟩ := failedRun_output keeps ledger_replacesOrKeeps removing
    ready applied hooked (eq_resultIn loading) (eq_resultIn failed)
  cases loaded.symm.trans same
  rw [kept trivial] at ended
  rcases ended with ⟨refused, -⟩ | ⟨summary, swept, bodies, swept_eq, installs, -, counted, ended⟩
  · cases (eq_resultIn sweeping).symm.trans refused
  · cases (eq_resultIn sweeping).symm.trans swept_eq
    rcases ended with ⟨refused, -⟩ | ⟨down, takenDown, down_eq, -, emptied⟩
    · cases (eq_resultIn takingDown).symm.trans refused
    · exact ⟨_, bodies, installs, counted.symm, ⟨down, takenDown, down_eq⟩, emptied⟩

/-- A module of one method that cannot be written. -/
def lockedModule : TableModule := ⟨[some [0x06, 0x2A]], [], none, [], [], ["write"]⟩

set_option maxRecDepth 100000 in
/-- The body of the one method was captured and installed; as the module cannot be written, it is in
its slot no more. -/
theorem failedWrite_losesOutput :
    let plan := snapshotPlan compilesOnce lockedModule
    ∃ patched up loaded summary swept final,
      onPatches PatchSet.apply imageAtRest = .ok () patched ∧
      Plan.hookOrRestore patched = .ok () up ∧
      plan.load up = .ok () loaded ∧ loaded.output = some lockedModule ∧
      plan.sweep up = .ok summary swept ∧ summary.captured = 1 ∧
      plan.run imageAtRest = .error (.other "write failed") final ∧ final.output = none := by
  intro plan
  obtain ⟨patched, applied, hooked⟩ := imageAtRest_hooked (M := TableModule)
  have loading : resultOf (plan.load hookedImage) = .ok () := by decide +kernel
  have sweeping : resultOf (plan.sweep hookedImage) = .ok ⟨1, 0, 0, none⟩ := by decide +kernel
  have failed : resultOf (plan.run imageAtRest) = .error (.other "write failed") := by
    decide +kernel
  refine ⟨patched, hookedImage, _, _, _, _, applied, hooked, eq_resultIn loading, ?_,
    eq_resultIn sweeping, rfl, eq_resultIn failed, ?_⟩ <;> decide +kernel

end

end CilCapture.Sweep
