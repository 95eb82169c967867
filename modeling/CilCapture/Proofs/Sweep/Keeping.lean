import CilCapture.Proofs.Capture.Keeping
import CilCapture.Proofs.Sweep.AtRest
import CilCapture.Sweep.Run

/-!
# What a sweep leaves alone

Between putting up redirect and patches and taking them down a sweep touches neither. Everything it
has its collaborators do keeps what they keep of the world, and what they do while the compiler is
redirected (`keeps_bringUp`, `keeps_captureAll`); so does finishing (`keeps_finish`).

The condition is on the world, so it may speak of memory. It is asked of each collaborator by itself
(`Plan.Keeps`), and the theorems put these together in the order of the sweep. A stage that fails
has kept it as well, which is what taking down after a failure needs.
-/

namespace CilCapture.Sweep

open Capture Compile Memory

variable {M W α : Type}

/-! ## The rig -/

/-- A state with patches and redirect as in another one, and a condition on the world. -/
structure Rigged (holds : W → Prop) (start state : SweepState M W) : Prop where
  patches_eq : state.patches = start.patches
  redirect_eq : state.session.redirect = start.session.redirect
  wiring_eq : state.session.process.wiring = start.session.process.wiring
  here : holds state.session.process.world.world

/-- A session with redirect, wiring and world as in another one. -/
structure SameRig (before after : Session M W) : Prop where
  redirect_eq : after.redirect = before.redirect
  wiring_eq : after.process.wiring = before.process.wiring
  world_eq : after.process.world.world = before.process.world.world

/-- Installing a body touches neither redirect nor wiring. -/
theorem sameRig_install [ModuleStore M W] (row : Nat) (body : Body.MethodBody)
    (session : Session M W) : SameRig session (Session.install row body session).2 := by
  unfold Session.install
  split
  next => exact ⟨rfl, rfl, rfl⟩
  next => split <;> exact ⟨rfl, rfl, rfl⟩

section

variable {holds : W → Prop} {start : SweepState M W}

/-- The session may be exchanged for one with the same rig. -/
theorem Rigged.withSession {state : SweepState M W} (rigged : Rigged holds start state)
    {session : Session M W} (same : SameRig state.session session) :
    Rigged holds start { state with session } where
  patches_eq := rigged.patches_eq
  redirect_eq := same.redirect_eq.trans rigged.redirect_eq
  wiring_eq := same.wiring_eq.trans rigged.wiring_eq
  here := same.world_eq.symm ▸ rigged.here

/-- A change of the session that keeps its rig keeps the sweep's. -/
theorem keeps_changeSession {change : Session M W → Session M W}
    (same : ∀ session, SameRig session (change session)) :
    Keeps (Rigged holds start) (changeSession change) :=
  fun state rigged => rigged.withSession (same state.session)

/-- Taking something out of the session keeps the sweep's rig if it keeps the session's. -/
theorem keeps_takeFrom {step : Session M W → α × Session M W}
    (same : ∀ session, SameRig session (step session).2) :
    Keeps (Rigged holds start) (takeFrom step) :=
  fun state rigged => rigged.withSession (same state.session)

/-- A step on the session that may fail keeps the sweep's rig if it keeps the session's. -/
theorem keeps_onSession {step : Session M W → Except Fault α × Session M W}
    (same : ∀ session, SameRig session (step session).2) :
    Keeps (Rigged holds start) (onSession step) := by
  intro state rigged
  have kept := rigged.withSession (same state.session)
  unfold onSession
  rcases taken : step state.session with ⟨result, session⟩
  rw [taken] at kept
  cases result <;> exact kept

/-- The output module is no part of the rig. -/
theorem keeps_setOutput (output : Option M) :
    Keeps (Rigged holds start) (setOutput output) :=
  keeps_changeSession fun _ => ⟨rfl, rfl, rfl⟩

/-- Notices are no part of the rig. -/
theorem keeps_notice (report : Notice) : Keeps (Rigged holds start) (notice report) :=
  keeps_changeSession fun _ => ⟨rfl, rfl, rfl⟩

/-- A step of the world keeps the rig if it keeps the condition. -/
theorem keeps_onWorld {step : EStateM Fault W α} (keeps : Keeps holds step) :
    Keeps (Rigged holds start) (onWorld step) := by
  intro state rigged
  have there := keeps _ rigged.here
  unfold onWorld onProcess Process.onWorld Workspace.onWorld
  cases taken : step state.session.process.world.world <;> rw [taken] at there <;>
    exact ⟨rigged.patches_eq, rigged.redirect_eq, rigged.wiring_eq, there⟩

end

/-- A snapshot only reads. -/
theorem keeps_snapshot [AddressSpace W] {holds : W → Prop} {start : SweepState M W}
    (plan : Plan M W) : Keeps (Rigged holds start) plan.snapshot :=
  keeps_get.bind fun _ => keeps_settle _

/-- Taking the output module out of its slot is no part of the rig. -/
theorem keeps_takeOutput {holds : W → Prop} {start : SweepState M W} :
    Keeps (Rigged holds start) Plan.takeOutput := by
  unfold Plan.takeOutput
  refine keeps_get.bind fun state => ?_
  cases state.output with
  | none => exact keeps_throw _
  | some output => exact (keeps_setOutput none).bind fun _ => keeps_pure output

/-! ## Collaborators -/

section

variable [NativeCode W] [Engine.CodeSpace W] [Engine.Introspection W] [ModuleStore M W]

/-- The engine and the collaborators of a sweep keep a condition on the world, whatever they come
to. -/
structure Plan.Keeps (plan : Plan M W) (holds : W → Prop) : Prop where
  placing : PlacingKeeps holds
  native : NativeKeeps holds
  answering : AnsweringKeeps holds
  methodHandle : ∀ token, (plan.context.host.methodHandle token).Keeps holds
  invoke : ∀ token, (plan.context.host.invoke token).Keeps holds
  loadBytes : ∀ image, CilCapture.Keeps holds (plan.loader.loadBytes image)
  write : ∀ path options (output : M),
    CilCapture.Keeps holds (ModuleStore.write path options output)
  preInitialize : (plan.strategy.preInitialize plan.context).Keeps (Behind holds)
  postInitialize : (plan.strategy.postInitialize plan.context).Keeps (Behind holds)
  needsCapture : ∀ row, (plan.strategy.needsCapture plan.context row).Keeps (Behind holds)
  forceCompile : ∀ method, (plan.strategy.forceCompile plan.context method).Keeps (Behind holds)
  removeRuntimeSupport : ∀ output,
    (plan.strategy.removeRuntimeSupport plan.context output).Keeps (Behind holds)
  resolver : ∀ opcode token, (plan.strategy.resolver opcode token).Keeps (Behind holds)

variable {plan : Plan M W} {holds : W → Prop} {start : SweepState M W}

/-- What is carried out with a recorder behind the redirect leaves patches and redirect alone. -/
theorem keeps_perform (keeps : plan.Keeps holds) (records : Records plan start.session)
    {routine : Routine (Workspace M W) α} (kept : routine.Keeps (Behind holds)) :
    Keeps (Rigged holds start) (perform routine) := by
  intro state rigged
  obtain ⟨rules, same_resolver, recording⟩ := records.of_wiring rigged.wiring_eq
  have keeping : Keeping (Behind holds) state.session.process := by
    refine ⟨rigged.here, ?_⟩
    intro callback installed event
    cases recording.symm.trans installed
    apply keeps_record (behind_placing keeps.placing) (behind_native keeps.native)
    rw [same_resolver]
    exact keeps.resolver
  have there := keeping_perform (behind_native keeps.native) (behind_answering keeps.answering)
    kept keeping
  have wired := look_performed steady_wiring routine state
  unfold perform onProcess at wired ⊢
  cases performed : Process.perform routine state.session.process <;>
    rw [performed] at there wired <;>
    exact ⟨rigged.patches_eq, rigged.redirect_eq, wired.trans rigged.wiring_eq, there.here⟩

/-- Running the packer's constructor keeps what the host keeps, its callbacks included. -/
theorem keeps_runConstructor (keeps : plan.Keeps holds) (records : Records plan start.session)
    (constructor_ : Option Token) :
    Keeps (Rigged holds start) (plan.runConstructor constructor_) := by
  cases constructor_ with
  | none => exact keeps_pure ()
  | some token => exact keeps_perform keeps records (behind_lift (keeps.invoke token))

/-- Bringing the image up keeps what the collaborators keep, at whichever point it stops. -/
theorem keeps_bringUp [AddressSpace W] (keeps : plan.Keeps holds)
    (records : Records plan start.session) : Keeps (Rigged holds start) plan.bringUp := by
  unfold Plan.bringUp
  refine (keeps_perform keeps records keeps.preInitialize).bind fun _ => ?_
  refine (keeps_settle _).bind fun constructor_ => ?_
  extract_lets load proceed
  have loading (image : Bytes) : Keeps (Rigged holds start) (load image) := by
    refine (keeps_onWorld (keeps.loadBytes image)).bind fun output => ?_
    refine (keeps_setOutput _).bind fun _ => ?_
    exact keeps_perform keeps records keeps.postInitialize
  have proceeds (done : Unit) : Keeps (Rigged holds start) (proceed done) := by
    dsimp only [proceed]
    split
    next =>
      refine (keeps_snapshot plan).bind fun image => ?_
      refine (keeps_runConstructor keeps records constructor_).bind fun _ => ?_
      exact (keeps_pure image).bind loading
    next =>
      refine (keeps_runConstructor keeps records constructor_).bind fun _ => ?_
      exact (keeps_snapshot plan).bind loading
  split
  next => exact (keeps_notice _).bind proceeds
  next => exact proceeds ()

/-! ## Rows -/

/-- The capture of an armed row keeps what the collaborators keep. -/
theorem keeps_captureArmed (keeps : plan.Keeps holds) (records : Records plan start.session)
    (row : Nat) (handle : Handle) : Keeps (Rigged holds start) (plan.captureArmed row handle) := by
  unfold Plan.captureArmed
  refine keeps_get.bind fun state => ?_
  refine Keeps.bind (keeps_changeSession fun _ => ⟨rfl, rfl, rfl⟩) fun _ => ?_
  refine (keeps_perform keeps records (keeps.forceCompile handle)).attempt.bind fun compiled => ?_
  refine Keeps.bind (keeps_changeSession fun _ => ⟨rfl, rfl, rfl⟩) fun _ => ?_
  refine Keeps.bind (keeps_takeFrom fun _ => ⟨rfl, rfl, rfl⟩) fun staged => ?_
  refine Keeps.bind (keeps_takeFrom fun _ => ⟨rfl, rfl, rfl⟩) fun stashed => ?_
  cases stashed with
  | some cause => exact keeps_throw cause
  | none =>
    refine (keeps_settle compiled).bind fun _ => ?_
    refine keeps_get.bind fun state => ?_
    refine (keeps_settle _).bind fun body => ?_
    exact keeps_onSession fun session => sameRig_install body.row body.body session

/-- The capture of a row keeps what the collaborators keep, whatever it comes to. -/
theorem keeps_captureRow (keeps : plan.Keeps holds) (records : Records plan start.session)
    (row : Nat) : Keeps (Rigged holds start) (plan.captureRow row) := by
  unfold Plan.captureRow
  refine (keeps_perform keeps records (behind_lift (keeps.methodHandle _))).bind fun handle => ?_
  cases handle with
  | none => exact keeps_pure false
  | some handle =>
    refine (keeps_perform keeps records (keeps.needsCapture row)).bind fun needed => ?_
    split
    next => exact (keeps_captureArmed keeps records row handle).bind fun _ => keeps_pure true
    next => exact keeps_pure false

/-- Row after row nothing of the rig is touched. -/
theorem rigged_countRows (keeps : plan.Keeps holds) (records : Records plan start.session)
    (rows : List Nat) (summary : Summary) {state : SweepState M W}
    (rigged : Rigged holds start state) :
    Rigged holds start (plan.countRows rows summary state).2 := by
  induction rows generalizing summary state with
  | nil => exact rigged
  | cons row rows ih =>
    refine ih _ ?_
    have kept := keeps_captureRow keeps records row state rigged
    split <;> rename_i captured <;> rw [captured] at kept
    · exact kept
    · exact kept
    · exact kept.withSession ⟨rfl, rfl, rfl⟩

/-- The capture of all rows keeps what the collaborators keep. -/
theorem keeps_captureAll (keeps : plan.Keeps holds) (records : Records plan start.session) :
    Keeps (Rigged holds start) plan.captureAll :=
  fun _ rigged => rigged_countRows keeps records _ .empty rigged

/-! ## The output -/

/-- Finishing the output keeps what the collaborators keep, writing included. -/
theorem keeps_finish (keeps : plan.Keeps holds) (records : Records plan start.session)
    (summary : Summary) : Keeps (Rigged holds start) (plan.finish summary) := by
  unfold Plan.finish
  refine Keeps.bind keeps_takeOutput fun output => ?_
  extract_lets path complete
  have completes (output : M) : Keeps (Rigged holds start) (complete output) := by
    dsimp only [complete]
    cases fillSignatures output with
    | error cause filled => exact keeps_throw cause
    | ok count filled =>
      dsimp only
      split
      next => exact (keeps_setOutput _).bind fun _ => keeps_pure summary
      next =>
        refine (keeps_onWorld (keeps.write _ _ _)).bind fun _ => ?_
        exact (keeps_setOutput _).bind fun _ => keeps_pure _
  split
  next => exact (keeps_perform keeps records (keeps.removeRuntimeSupport output)).bind completes
  next => exact (keeps_pure output).bind completes

end

end CilCapture.Sweep
