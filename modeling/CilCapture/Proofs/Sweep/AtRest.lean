import CilCapture.Proofs.Capture.Workspace
import CilCapture.Proofs.Compile.Wiring
import CilCapture.Sweep.Prepare

/-!
# Sweeps at rest

Between two rows a sweep is at rest: nothing is armed, and nothing of the row before is left, staged
or stashed. It is when it was prepared (`prepare_atRest`), and it stays so with whatever is carried
out before a row is armed (`perform_atRest`).

Before any row is armed collaborators may have methods compiled, by the packer's constructor above
all. Nothing is armed then, so the callback does not run and what is told of the recorder stays as
it was (`look_performed`).
-/

namespace CilCapture.Sweep

open Capture Compile Memory

variable {M W : Type}

/-- A session with nothing armed and nothing left of a row. -/
structure AtRest (session : Session M W) : Prop where
  method_eq : session.process.filter.targetMethod = 0
  row_eq : session.process.client.targetRow = none
  staged_eq : session.process.client.staged = none
  stashed_eq : session.process.filter.stashed = none

/-- A session whose callback records, with the tokens mapped as the plan's strategy does. -/
def Records [NativeCode W] [Engine.CodeSpace W] (plan : Plan M W) (session : Session M W) : Prop :=
  ∃ rules : CaptureRules M W, rules.resolver = plan.strategy.resolver ∧
    session.process.filter.callback = some (record rules)

/-- A redirect that was just created comes with a filter that has nothing armed. -/
theorem filter_of_create {C : Type} [AddressSpace W] [Engine.CodeSpace W] {owner : ThreadId}
    {kind : Hook.HookKind} {context : Hook.HookContext} {process final : Process C W}
    {redirect : Hook.Redirect}
    (created : Hook.create owner kind context process = .ok redirect final) :
    final.filter = .disarmed context.resolver := by
  unfold Hook.create at created
  cases acquired : Hook.acquireSession process with
  | error fault after => simp only [acquired, reduceCtorEq] at created
  | ok done after =>
    cases located : Process.onWorld (Hook.findSite kind context) after with
    | error fault after => simp only [acquired, located, reduceCtorEq] at created
    | ok site after =>
      simp only [acquired, located] at created
      cases created
      rfl

/-- A prepared sweep is at rest, with a recorder behind its redirect. -/
theorem prepare_atRest [ModuleStore M W] [AddressSpace W] [Engine.CodeSpace W] [NativeCode W]
    {settings : Settings} {input : String} {environment : Engine.Environment}
    {table : Engine.OffsetTable} {routines : MethodRoutines W}
    {collaborators : Collaborators M W} {process final : Process Recorder (Workspace M W)}
    {plan : Plan M W} {redirect : Hook.Redirect}
    (prepared : prepare settings input environment table routines collaborators process =
      .ok (plan, redirect) final) :
    AtRest { redirect, process := final } ∧ Records plan { redirect, process := final } := by
  unfold prepare at prepared
  obtain ⟨packed, loaded, -, prepared⟩ := run_bind_eq_ok.mp prepared
  obtain ⟨redirect', created, created_eq, prepared⟩ := run_bind_eq_ok.mp prepared
  have disarmed := filter_of_create created_eq
  cases prepared
  refine ⟨⟨?_, rfl, rfl, ?_⟩, _, rfl, rfl⟩
  · exact congrArg Filter.targetMethod disarmed
  · exact congrArg Filter.stashed disarmed

/-! ## Work at rest -/

/-- Whether a session records is a matter of its wiring. -/
theorem Records.of_wiring [NativeCode W] [Engine.CodeSpace W] {plan : Plan M W}
    {before after : Session M W} (records : Records plan before)
    (same : after.process.wiring = before.process.wiring) : Records plan after := by
  obtain ⟨rules, same_resolver, callback_eq⟩ := records
  have same_callback : after.process.filter.callback = before.process.filter.callback :=
    congrArg Wiring.callback same
  exact ⟨rules, same_resolver, same_callback.trans callback_eq⟩

/-- The sweep in another workspace. -/
def SweepState.withWorkspace (state : SweepState M W) (workspace : Workspace M W) :
    SweepState M W :=
  { state with session.process.world := workspace }

/-- Being at rest is no matter of the workspace. -/
theorem AtRest.withWorkspace {state : SweepState M W} (rest : AtRest state.session)
    (workspace : Workspace M W) : AtRest (state.withWorkspace workspace).session :=
  ⟨rest.method_eq, rest.row_eq, rest.staged_eq, rest.stashed_eq⟩

section

variable [NativeCode W] [Engine.Introspection W]

/-- What a sweep carries out leaves what is steady as it is, such as the wiring. -/
theorem look_performed {α β : Type} {look : Process Recorder (Workspace M W) → β}
    (steady : Steady look) (routine : Routine (Workspace M W) α) (state : SweepState M W) :
    look (finalState (perform routine state)).session.process = look state.session.process := by
  have kept := look_perform steady routine state.session.process
  unfold perform onProcess
  cases performed : Process.perform routine state.session.process <;> rw [performed] at kept <;>
    exact kept

/-- What is carried out at rest changes nothing but the workspace. -/
theorem perform_atRest {α : Type} {holds : Workspace M W → Prop} (native : NativeKeeps holds)
    {routine : Routine (Workspace M W) α} (keeps : routine.Keeps holds) {state : SweepState M W}
    (rest : AtRest state.session) (here : holds state.session.process.world) :
    ∃ workspace, finalState (perform routine state) = state.withWorkspace workspace ∧
      holds workspace := by
  obtain ⟨workspace, final_eq, there⟩ := perform_disarmed native keeps rest.method_eq here
  have performed : finalState (perform routine state) = { state with
      session.process := finalState (Process.perform routine state.session.process) } := by
    unfold perform onProcess
    cases Process.perform routine state.session.process <;> rfl
  refine ⟨workspace, ?_, there⟩
  rw [performed, final_eq]
  rfl

end

end CilCapture.Sweep
