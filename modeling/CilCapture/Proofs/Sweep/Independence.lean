import CilCapture.Proofs.Sweep.Beside
import CilCapture.Rehearsal.Script

/-!
# Rows apart

A sweep uses one recorder, one filter, one resolver and one routine that tells clauses for all of
its rows. No row finds anything that another one has left in them. It depends on the collaborators
alone whether rows influence each other: an `Outlook` tells what each row sees of the workspace, and
where what is done for a row is not seen by any other (`Outlook.Apart`), a row meets what it would
meet without the others (`view_past_of_lt`). It comes to the same then in every sweep in which the
same is done for it, whatever is done for other rows (`rows_independent`).

The comparison of two sweeps is made twice. Within one sweep each row is compared with no other
sweep at all, to see what it leaves to the rows behind it (`captureRow_passes`); then a row is
compared with the same row of another sweep (`row_sameFor`). Both are `agree_captureRow`.

What is assumed of the collaborators is about what rows can notice and is not assumed of the
recorder, the filter or the resolver. The instance at the end has shelves for the rows, so that one
row can fail, break down or be compiled twice while the others are as they would be.
-/

namespace CilCapture.Sweep

open Capture Compile Engine

variable {ι M W V : Type}

/-- What the output module holds for a row. -/
def storedBody [ModuleStore M W] (row : Nat) (workspace : Workspace M W) :
    Option (Except Fault (Option Bytes)) :=
  workspace.output.map (ModuleStore.methodBody row)

/-! ## What rows see -/

/-- How a workspace looks to the rows of a module, and what may be done for each of them. -/
structure Outlook (M W V : Type) where
  /-- What the engine answers about methods. -/
  facts : Facts
  /-- The owner of a method's code, as the resolver is to tell it. -/
  owner : Handle → Except Fault Handle
  /-- The routines that tell clauses, or the fault of looking for one in vain. -/
  readers : Except Fault (ClauseReader → Prop)
  /-- The workspaces that may come about. -/
  possible : Workspace M W → Prop
  /-- What a row sees of a workspace. -/
  view : Nat → Workspace M W → V
  /-- The handles that the method of a row may have. -/
  handles : Nat → Handle → Prop
  /-- The calls that may be made while it is compiled. -/
  calls : Nat → CompileCall → Prop

namespace Outlook

/-- What captures rely on: no row notices what the engine does beside compiling. -/
def around (outlook : Outlook M W V) : Surroundings M W where
  facts := outlook.facts
  owner := outlook.owner
  readers := outlook.readers
  possible := outlook.possible
  quiet workspace after :=
    outlook.possible after ∧ ∀ row, outlook.view row after = outlook.view row workspace

/-- A workspace that looks to every row but one as it did at the start. -/
def Spares (outlook : Outlook M W V) (row : Nat) (start workspace : Workspace M W)
    (_ : Empty → Workspace M W) : Prop :=
  outlook.possible workspace ∧
    ∀ other, other ≠ row → outlook.view other workspace = outlook.view other start

/-- A workspace that looks to every row but one as it did at the start, and holds for this row what
it held. -/
def Leaves [ModuleStore M W] (outlook : Outlook M W V) (row : Nat) (start workspace : Workspace M W)
    (none : Empty → Workspace M W) : Prop :=
  outlook.Spares row start workspace none ∧ storedBody row workspace = storedBody row start

/-- Workspaces that look alike to a row. -/
def LookAlike (outlook : Outlook M W V) (row : Nat) (workspace : Workspace M W)
    (others : ι → Workspace M W) : Prop :=
  outlook.possible workspace ∧
    ∀ i, outlook.possible (others i) ∧ outlook.view row (others i) = outlook.view row workspace

section

variable [ModuleStore M W] [NativeCode W] [CodeSpace W] [Introspection W]

/-- A row sees what is stored for it. -/
def Sees (outlook : Outlook M W V) : Prop :=
  ∀ row {workspace other}, outlook.possible workspace → outlook.possible other →
    outlook.view row other = outlook.view row workspace →
      storedBody row other = storedBody row workspace

/-- Whatever a plan does for a row, no other row notices, and until a body is stored for the row
nothing is changed that is stored. -/
def Apart (outlook : Outlook M W V) (plan : Plan M W) (rules : CaptureRules M W) : Prop :=
  ∀ row start, outlook.possible start →
    WorksAlike outlook.around (outlook.calls row) (outlook.handles row) (outlook.Leaves row start)
      (outlook.Spares row start) plan plan rules rules row

/-- Two plans do the same for a row, in workspaces that look alike to it. -/
def SameFor (outlook : Outlook M W V) (row : Nat) (plan plan' : Plan M W)
    (rules rules' : CaptureRules M W) : Prop :=
  WorksAlike outlook.around (outlook.calls row) (outlook.handles row)
    (outlook.LookAlike (ι := Unit) row) (outlook.LookAlike row) plan plan' rules rules' row

end

end Outlook

/-- Whatever a row comes to, no other row notices; only a captured one has another body stored. -/
theorem spares_of_reached [ModuleStore M W] {outlook : Outlook M W V} {row : Nat}
    {start workspace : Workspace M W} {none : Empty → Workspace M W}
    {result : Except Fault Bool}
    (related :
      reached (outlook.Leaves row start) (outlook.Spares row start) result workspace none) :
    outlook.Spares row start workspace none ∧
      (RowClass.ofResult result ≠ .captured → storedBody row workspace = storedBody row start) := by
  rcases result with cause | captured
  · exact ⟨related.1, fun _ => related.2⟩
  · cases captured with
    | false => exact ⟨related.1, fun _ => related.2⟩
    | true => exact ⟨related, fun other => absurd rfl other⟩

/-! ## Sweeps that are ready -/

/-- What the entry points look at of a process, beside the armed method. -/
structure Setup where
  targetModule : Handle
  depth : Nat
  methodSlot : Option Slot
  compSlot : Option Slot

def setup (process : Process Recorder (Workspace M W)) : Setup where
  targetModule := process.filter.targetModule
  depth := process.filter.depth
  methodSlot := process.methodSlot
  compSlot := process.compSlot

/-- Neither calls nor callbacks change what the entry points look at. -/
theorem steady_setup : Steady (setup (M := M) (W := W)) where
  worked _ _ _ _ _ _ _ := rfl
  around before after same := by
    have depth_eq : after.filter.depth = before.filter.depth + 1 := congrArg Setup.depth same
    simp only [setup, Process.onFilter, Filter.enter, Filter.leave, Setup.mk.injEq] at same ⊢
    simp [same]

section

variable [NativeCode W] [CodeSpace W]

/-- A sweep that is ready for its next row: it is at rest, it records, and its workspace is one of
those that may come about. -/
structure Poised (outlook : Outlook M W V) (rules : CaptureRules M W) (state : SweepState M W) :
    Prop where
  rest : AtRest state.session
  recording : Recording outlook.around rules state.session.process
  possible : outlook.possible state.session.process.world

/-- A prepared sweep is ready, with a resolver that remembers nothing yet. -/
theorem poised_of_prepare [ModuleStore M W] [Memory.AddressSpace W] {outlook : Outlook M W V}
    {settings : Settings} {input : String} {environment : Environment} {table : OffsetTable}
    {routines : MethodRoutines W} {collaborators : Collaborators M W}
    {process final : Process Recorder (Workspace M W)} {plan : Plan M W} {redirect : Hook.Redirect}
    (owner_eq : outlook.owner = (Resolver.ofFlavor environment.flavor).rule outlook.facts)
    (prepared : prepare settings input environment table routines collaborators process =
      .ok (plan, redirect) final) (possible : outlook.possible final.world) (patches : PatchSet) :
    ∃ rules, rules.resolver = plan.strategy.resolver ∧
      Poised outlook rules { patches, session := { redirect, process := final } } := by
  have atRest := (prepare_atRest prepared).1
  unfold prepare at prepared
  obtain ⟨packed, loaded, -, prepared⟩ := run_bind_eq_ok.mp prepared
  obtain ⟨redirect', created, created_eq, prepared⟩ := run_bind_eq_ok.mp prepared
  have resolver_eq := congrArg Filter.resolver (filter_of_create created_eq)
  cases prepared
  refine ⟨_, ?_, atRest, ⟨rfl, ?_, ?_, by simp [Session.start, Recorder.fresh]⟩, possible⟩
  · rfl
  · change created.filter.resolver.Sound outlook.facts
    rw [resolver_eq]
    exact Resolver.sound_ofFlavor _ _
  · change created.filter.resolver.rule outlook.facts = outlook.owner
    rw [resolver_eq, owner_eq]
    rfl

/-- Sweeps that are ready, with the same setup, can be compared. -/
theorem Poised.twinned {outlook : Outlook M W V} {rules rules' : CaptureRules M W}
    {S : Workspace M W → (ι → Workspace M W) → Prop} {state : SweepState M W}
    {others : ι → SweepState M W} (poised : Poised outlook rules state)
    (others_poised : ∀ i, Poised outlook rules' (others i))
    (same_setup : ∀ i, setup (others i).session.process = setup state.session.process)
    (related : S state.session.process.world fun i => (others i).session.process.world) :
    Twinned outlook.around S rules rules' state.captures (fun i => (others i).captures)
      state.session.process fun i => (others i).session.process where
  related := related
  here := poised.recording
  there i := (others_poised i).recording
  twins i := {
    targetModule := congrArg Setup.targetModule (same_setup i)
    targetMethod := (others_poised i).rest.method_eq.trans poised.rest.method_eq.symm
    depth := congrArg Setup.depth (same_setup i)
    stashed := (others_poised i).rest.stashed_eq.trans poised.rest.stashed_eq.symm
    methodSlot := congrArg Setup.methodSlot (same_setup i)
    compSlot := congrArg Setup.compSlot (same_setup i)
    targetRow := (others_poised i).rest.row_eq.trans poised.rest.row_eq.symm
    staged := (others_poised i).rest.staged_eq.trans poised.rest.staged_eq.symm }
  count _ := Nat.add_comm _ _

end

/-! ## One row -/

section

variable [ModuleStore M W] [NativeCode W] [CodeSpace W] [Introspection W]
variable {outlook : Outlook M W V} {plan plan' : Plan M W} {rules rules' : CaptureRules M W}
variable {row : Nat} {state other : SweepState M W}

/-- What a row of a class leaves to the next ones. -/
structure Passes (outlook : Outlook M W V) (rules : CaptureRules M W) (row : Nat)
    (kind : RowClass) (state final : SweepState M W) : Prop where
  poised : Poised outlook rules final
  setup_eq : setup final.session.process = setup state.session.process
  view_eq : ∀ other, other ≠ row →
    outlook.view other final.session.process.world = outlook.view other state.session.process.world
  stored_eq : kind ≠ .captured →
    storedBody row final.session.process.world = storedBody row state.session.process.world

/-- A row that is captured, or tried, leaves the sweep ready for the next one, and the other rows as
they see it. -/
theorem captureRow_passes (apart : outlook.Apart plan rules) (row : Nat)
    (poised : Poised outlook rules state) :
    Passes outlook rules row (.ofResult (resultOf (plan.captureRow row state))) state
      (finalState (plan.captureRow row state)) := by
  -- With no sweep beside this one the relation is a condition on it alone, on what it has left.
  let none : Empty → SweepState M W := Empty.elim
  have alone : Twinned outlook.around (outlook.Leaves row state.session.process.world) rules rules
      state.captures (fun i => (none i).captures) state.session.process
      fun i => (none i).session.process :=
    poised.twinned (fun i => i.elim) (fun i => i.elim) ⟨⟨poised.possible, fun _ _ => rfl⟩, rfl⟩
  obtain ⟨_, -, twinned⟩ := agree_captureRow (apart row _ poised.possible) alone
  obtain ⟨spares, stored_eq⟩ := spares_of_reached twinned.related
  exact {
    poised := ⟨atRest_captureRow plan row poised.rest, twinned.here, spares.1⟩
    setup_eq := look_captureRow steady_setup plan row poised.rest
    view_eq := spares.2
    stored_eq }

/-- A row passes with its entry in the count as it does without. -/
theorem countRow_passes (apart : outlook.Apart plan rules) (row : Nat) (summary : Summary)
    (poised : Poised outlook rules state) :
    Passes outlook rules row (.ofResult (resultOf (plan.captureRow row state))) state
      (plan.countRow row summary state).2 := by
  have passes := captureRow_passes apart row poised
  obtain ⟨records, notices, final_eq⟩ := countRow_final plan row summary state
  rw [final_eq]
  exact { passes with
    poised := ⟨⟨passes.poised.rest.method_eq, passes.poised.rest.row_eq,
      passes.poised.rest.staged_eq, passes.poised.rest.stashed_eq⟩,
      { passes.poised.recording with }, passes.poised.possible⟩ }

/-! ## Row after row -/

variable {start start' : SweepState M W}

/-- The sweep is ready for its next row after any number of them. The induction is on the rows. -/
theorem poised_past (apart : outlook.Apart plan rules) (poised : Poised outlook rules start)
    (rows : Nat) : Poised outlook rules (plan.past start rows) ∧
      setup (plan.past start rows).session.process = setup start.session.process := by
  induction rows with
  | zero => exact ⟨poised, rfl⟩
  | succ rows ih =>
    have passes := countRow_passes apart (rows + 1) .empty ih.1
    rw [past_succ]
    exact ⟨passes.poised, passes.setup_eq.trans ih.2⟩

/-- What a row leaves to the next ones in the course of a sweep. -/
theorem past_passes (apart : outlook.Apart plan rules) (poised : Poised outlook rules start)
    (rows : Nat) : Passes outlook rules (rows + 1) (plan.classOf start (rows + 1))
      (plan.past start rows) (plan.past start (rows + 1)) := by
  rw [past_succ]
  exact countRow_passes apart (rows + 1) .empty (poised_past apart poised rows).1

/-- A row finds what it would have found at the start. -/
theorem view_past_of_lt (apart : outlook.Apart plan rules) (poised : Poised outlook rules start)
    {row rows : Nat} (later : rows < row) :
    outlook.view row (plan.past start rows).session.process.world =
      outlook.view row start.session.process.world := by
  induction rows with
  | zero => rfl
  | succ rows ih =>
    exact ((past_passes apart poised rows).view_eq row (by omega)).trans (ih (by omega))

/-- What a row leaves for itself stays. -/
theorem view_past_of_le (apart : outlook.Apart plan rules) (poised : Poised outlook rules start)
    {row rows : Nat} (earlier : row ≤ rows) :
    outlook.view row (plan.past start rows).session.process.world =
      outlook.view row (plan.past start row).session.process.world := by
  induction earlier with
  | refl => rfl
  | @step rows earlier ih =>
    have before : row ≤ rows := earlier
    exact ((past_passes apart poised rows).view_eq row (by omega)).trans ih

/-- Rows that are not counted as captured keep what was stored for them. -/
theorem storedBody_past (sees : outlook.Sees) (apart : outlook.Apart plan rules)
    (poised : Poised outlook rules start) {row rows : Nat}
    (other : 1 ≤ row → row ≤ rows → plan.classOf start row ≠ .captured) :
    storedBody row (plan.past start rows).session.process.world =
      storedBody row start.session.process.world := by
  have possible (rows : Nat) := (poised_past apart poised rows).1.possible
  -- Either the row is still to come, or what counts is what it left when it was its turn.
  rcases Nat.lt_or_ge rows row with later | earlier
  · exact sees row poised.possible (possible rows) (view_past_of_lt apart poised later)
  · have kept := sees row (possible row) (possible rows) (view_past_of_le apart poised earlier)
    rw [kept]
    cases row with
    | zero => rfl
    | succ before =>
      rw [(past_passes apart poised before).stored_eq (other (by omega) earlier)]
      exact sees _ poised.possible (possible before)
        (view_past_of_lt apart poised (Nat.lt_succ_self before))

/-- Just the rows that failed have a record of it more. -/
theorem failures_past (apart : outlook.Apart plan rules) (poised : Poised outlook rules start)
    (row rows : Nat) :
    failures row (plan.past start rows).session.process.client.records =
      failures row start.session.process.client.records +
        if 1 ≤ row ∧ row ≤ rows ∧ plan.classOf start row = .failed then 1 else 0 := by
  induction rows with
  | zero =>
    rw [if_neg (by omega)]
    rfl
  | succ rows ih =>
    obtain ⟨ready, -⟩ := poised_past apart poised rows
    rw [past_succ, failures_countRow plan (rows + 1) row .empty ready.recording.callback_eq
      ready.rest, ih]
    have class_eq : RowClass.ofResult (resultOf
      (plan.captureRow (rows + 1) (plan.past start rows))) = plan.classOf start (rows + 1) := rfl
    rw [class_eq]
    by_cases same : row = rows + 1
    · subst same
      have beyond : ¬ rows + 1 ≤ rows := by omega
      simp [beyond]
    · have earlier : row ≤ rows + 1 ↔ row ≤ rows := by omega
      simp [same, earlier]

/-- For a row that is captured the output module holds what it made of the captured body. -/
theorem stored_of_captured (sees : outlook.Sees) (apart : outlook.Apart plan rules)
    (poised : Poised outlook rules start) {row rows : Nat} (first : 1 ≤ row) (last : row ≤ rows)
    (captured : plan.classOf start row = .captured) :
    ∃ body compiled after, Captures plan row (plan.past start (row - 1)) body compiled ∧
      Accepts compiled.world.output row body after ∧
      storedBody row (plan.past start rows).session.process.world =
        some (ModuleStore.methodBody row after) := by
  obtain ⟨before, rfl⟩ : ∃ before, row = before + 1 := ⟨row - 1, by omega⟩
  obtain ⟨ready, -⟩ := poised_past apart poised before
  have possible (rows : Nat) := (poised_past apart poised rows).1.possible
  have ended : plan.captureRow (before + 1) (plan.past start before) = .ok true _ :=
    eq_resultIn (RowClass.eq_of_captured captured)
  obtain ⟨body, compiled, after, captures, accepts, left⟩ :=
    captures_of_ok ready.recording.callback_eq ready.rest ended
  refine ⟨body, compiled, after, captures, accepts, ?_⟩
  have there : (plan.past start (before + 1)).session.process.world.output = some after := by
    rw [world_past_succ, ended]
    exact left
  rw [sees _ (possible _) (possible _) (view_past_of_le apart poised last), storedBody, there]
  rfl

/-- A row for which the same is done in two sweeps comes to the same in them. -/
theorem row_sameFor (apart : outlook.Apart plan rules) (apart' : outlook.Apart plan' rules')
    (poised : Poised outlook rules start) (poised' : Poised outlook rules' start')
    (same_setup : setup start'.session.process = setup start.session.process) {row : Nat}
    (first : 1 ≤ row) (same : outlook.SameFor row plan plan' rules rules')
    (same_view : outlook.view row start'.session.process.world =
      outlook.view row start.session.process.world) :
    plan'.classOf start' row = plan.classOf start row ∧
      outlook.view row (plan'.past start' row).session.process.world =
        outlook.view row (plan.past start row).session.process.world := by
  obtain ⟨before, rfl⟩ : ∃ before, row = before + 1 := ⟨row - 1, by omega⟩
  obtain ⟨ready, setup_eq⟩ := poised_past apart poised before
  obtain ⟨ready', setup_eq'⟩ := poised_past apart' poised' before
  -- What was done for the earlier rows may differ, but the row sees nothing of it in either sweep.
  have here := view_past_of_lt apart poised (Nat.lt_succ_self before)
  have there := view_past_of_lt apart' poised' (Nat.lt_succ_self before)
  have related : outlook.LookAlike (before + 1) (plan.past start before).session.process.world
      fun _ : Unit => (plan'.past start' before).session.process.world :=
    ⟨ready.possible, fun _ => ⟨ready'.possible, there.trans (same_view.trans here.symm)⟩⟩
  obtain ⟨finals, ended, twinned⟩ := agree_captureRow same
    (ready.twinned (fun _ => ready') (fun _ => setup_eq'.trans (same_setup.trans setup_eq.symm))
      related)
  rw [reached_self] at twinned
  have ended : plan'.captureRow (before + 1) (plan'.past start' before) = _ := ended ()
  have result_eq : resultOf (plan'.captureRow (before + 1) (plan'.past start' before)) =
      resultOf (plan.captureRow (before + 1) (plan.past start before)) := by
    rw [ended, resultOf_resultIn]
  refine ⟨congrArg RowClass.ofResult result_eq, ?_⟩
  rw [world_past_succ, world_past_succ, ended, finalState_resultIn]
  exact (twinned.related.2 ()).2

/-- Rows do not influence each other. A sweep counts every row once. Just the rows that it counts as
captured have another body stored, which is what the output module made of the body captured for
the row; just those that it counts as failed have a record of a failure more. How a row is counted
and what is stored for it is the same in any other sweep in which the same is done for the row. -/
theorem rows_independent (sees : outlook.Sees) (apart : outlook.Apart plan rules)
    (poised : Poised outlook rules start) :
    let rows := ModuleStore.methodCount plan.context.packed
    ∃ summary final, plan.captureAll start = .ok summary final ∧
      (summary.captured + summary.failed + summary.skipped = rows ∧
        summary.captured = plan.tally start rows .captured ∧
        summary.failed = plan.tally start rows .failed ∧
        summary.skipped = plan.tally start rows .skipped) ∧
      (∀ row, 1 ≤ row → row ≤ rows → plan.classOf start row = .captured →
        ∃ body compiled after, Captures plan row (plan.past start (row - 1)) body compiled ∧
          Accepts compiled.world.output row body after ∧
          storedBody row final.session.process.world = some (ModuleStore.methodBody row after)) ∧
      (∀ row, (1 ≤ row → row ≤ rows → plan.classOf start row ≠ .captured) →
        storedBody row final.session.process.world =
          storedBody row start.session.process.world) ∧
      (∀ row, failures row final.session.process.client.records =
        failures row start.session.process.client.records +
          if 1 ≤ row ∧ row ≤ rows ∧ plan.classOf start row = .failed then 1 else 0) ∧
      ∀ (plan' : Plan M W) rules' start', outlook.Apart plan' rules' →
        Poised outlook rules' start' →
        setup start'.session.process = setup start.session.process →
        ∀ row, 1 ≤ row → row ≤ rows → row ≤ ModuleStore.methodCount plan'.context.packed →
          outlook.SameFor row plan plan' rules rules' →
          outlook.view row start'.session.process.world =
            outlook.view row start.session.process.world →
          plan'.classOf start' row = plan.classOf start row ∧
            ∃ summary' final', plan'.captureAll start' = .ok summary' final' ∧
              storedBody row final'.session.process.world =
                storedBody row final.session.process.world := by
  have captureAll_eq (plan : Plan M W) (start : SweepState M W) : plan.captureAll start =
      .ok (plan.countRows (List.range' 1 (ModuleStore.methodCount plan.context.packed)) .empty
        start).1 (plan.past start (ModuleStore.methodCount plan.context.packed)) := rfl
  refine ⟨_, _, captureAll_eq plan start, ?_, fun row first last captured => ?_,
    fun row other => storedBody_past sees apart poised other,
    fun row => failures_past apart poised row _, ?_⟩
  · rw [countRows_eq]
    exact ⟨tally_add plan start _, rfl, rfl, rfl⟩
  · exact stored_of_captured sees apart poised first last captured
  · intro plan' rules' start' apart' poised' same_setup row first last last' same same_view
    obtain ⟨class_eq, view_eq⟩ :=
      row_sameFor apart apart' poised poised' same_setup first same same_view
    refine ⟨class_eq, _, _, captureAll_eq plan' start', ?_⟩
    refine sees row (poised_past apart poised _).1.possible
      (poised_past apart' poised' _).1.possible ?_
    rw [view_past_of_le apart poised last, view_past_of_le apart' poised' last', view_eq]

end

/-! ## Rows apart on shelves -/

section

open Rehearsal

/-- A module with a place for the body of each row; some places are sealed. -/
structure Shelves where
  count : Nat
  sealed : List Nat
  bodies : List (Nat × Bytes)
  deriving DecidableEq, Repr

instance : ModuleStore Shelves World where
  methodCount shelves := shelves.count
  hasBody _ _ := .ok true
  methodBody row shelves := .ok (shelves.bodies.lookup row)
  replaceBody row body shelves :=
    if row ∈ shelves.sealed then .error (.other "sealed") shelves
    else
      match body.encode .null with
      | .ok data => .ok () { shelves with bodies := (row, data) :: shelves.bodies }
      | .error fault => .error fault shelves
  globalConstructor _ := none
  typeConstructors _ := []
  signatureCount _ := 0
  signature _ _ := .ok none
  setSignature _ _ shelves := .ok () shelves
  removeType _ shelves := .ok false shelves
  write _ _ _ world := .ok () world

/-- An interface whose routines tell a clause. -/
def guarding : Interface := ⟨0, [⟨2, 0, 3, 3, 1, 0⟩]⟩

/-- The routine of the interface that tells clauses. -/
def guardingReader : ClauseReader := ⟨Interface.routineAddress .outer 8, false⟩

/-- Each row sees its own shelf, as far as the output module is concerned, and nothing else. -/
def shelvesOutlook : Outlook Shelves World (Option (Option Bytes × Bool)) where
  facts := ⟨fun _ => .ok false, .ok, .ok⟩
  owner := (Resolver.ofFlavor .v45).rule ⟨fun _ => .ok false, .ok, .ok⟩
  readers := .ok fun reader => reader = guardingReader
  possible workspace := workspace.world.answers = .none ∧ workspace.world.interfaces = [guarding]
  view row workspace :=
    workspace.output.map fun shelves => (shelves.bodies.lookup row, decide (row ∈ shelves.sealed))
  handles row handle := handle = 16 * (Token.ofMethod (UInt32.ofNat row)).row.toNat
  calls _ call := call.jitInfo = Interface.address 0

/-- The clause routine is found behind the interface. -/
theorem locate_guarding {workspace : Workspace Shelves World}
    (possible : shelvesOutlook.possible workspace) :
    ClauseReader.locate .v45 .x64 (Interface.address 0) workspace =
      .ok guardingReader workspace := by
  have located : ClauseReader.locate .v45 .x64 (Interface.address 0) workspace =
      .ok ⟨workspace.world.word (workspace.world.word (Interface.address 0) + 64), false⟩
        workspace := rfl
  have table_eq : workspace.world.word (Interface.address 0) = Interface.tableAddress 0 .outer := by
    unfold World.word
    rw [possible.2]
    rfl
  have entry_eq : workspace.world.word (Interface.tableAddress 0 .outer + 64) =
      Interface.routineAddress .outer 8 := by
    unfold World.word
    rw [possible.2]
    rfl
  rw [located, table_eq, entry_eq]
  rfl

/-- Questions about methods are answered by the facts, and leave the workspace alone. -/
theorem told_none {workspace : Workspace Shelves World} :
    shelvesOutlook.facts.Told (shelvesOutlook.around.quiet workspace) := by
  refine ⟨fun method => ?_, fun method => ?_, fun method => ?_⟩
  all_goals
    rintro ⟨output, ⟨memory, answers, interfaces, code, wrapped, incidents⟩⟩ ⟨⟨rfl, rfl⟩, same⟩
    refine ⟨_, ?_, rfl⟩
    exact ⟨⟨rfl, rfl⟩, same⟩

/-- Clauses are told the same in every workspace that may come about. -/
theorem readFrom_guarding (reader : ClauseReader) (object method : Address) (count index : Nat)
    {workspace other : Workspace Shelves World} (possible : shelvesOutlook.possible workspace)
    (possible' : shelvesOutlook.possible other) :
    (reader.readFrom object method count index other).1 =
        (reader.readFrom object method count index workspace).1 ∧
      shelvesOutlook.around.quiet workspace
        (reader.readFrom object method count index workspace).2 := by
  induction count generalizing index workspace other with
  | zero => exact ⟨rfl, possible, fun _ => rfl⟩
  | succ count ih =>
    have same : (NativeCode.clauseInfo reader.function object method index other).1 =
        (NativeCode.clauseInfo reader.function object method index workspace).1 := by
      change (World.tellClause reader.function object method index other.world).1 =
        (World.tellClause reader.function object method index workspace.world).1
      unfold World.tellClause
      rw [possible.2, possible'.2]
    obtain ⟨rest, quiet⟩ := @ih (index + 1)
      (NativeCode.clauseInfo reader.function object method index workspace).2
      (NativeCode.clauseInfo reader.function object method index other).2 possible possible'
    exact ⟨congrArg₂ List.cons same rest, quiet⟩

/-- What is told of the clauses is told by the interface, and nobody notices. -/
theorem read_guarding (jitInfo method : Address) (count : Nat)
    {workspace other : Workspace Shelves World} (possible : shelvesOutlook.possible workspace)
    (possible' : shelvesOutlook.possible other) :
    (guardingReader.read jitInfo method count other).1 =
        (guardingReader.read jitInfo method count workspace).1 ∧
      shelvesOutlook.around.quiet workspace
        (guardingReader.read jitInfo method count workspace).2 := by
  have plain : guardingReader.embedded = false := rfl
  unfold ClauseReader.read clauseObject
  rw [plain]
  exact readFrom_guarding guardingReader jitInfo method count 0 possible possible'

/-- Makes calls one after the other. -/
def compileAll {M W : Type} : List CompileCall → Routine (Workspace M W) Unit
  | [] => .done (.ok ())
  | call :: calls => .compile call fun _ => compileAll calls

/-- A plan under which each method makes calls of its own when it is compiled, some rows are left
alone, and a token cannot be mapped. -/
def scriptedPlan (alone : List Nat) (script : Handle → List CompileCall) : Plan Shelves World where
  context := {
    settings := {}
    environment := default
    packed := ⟨3, [], []⟩
    host := {
      moduleHandle := 0x10
      imageBase := 0
      methodHandle := fun token => .done (.ok (some (16 * token.row.toNat)))
      invoke := fun _ => .done (.ok ()) }
    routines := {
      reset := fun _ => .done (.ok ())
      doPrestub := fun _ => .done (.ok 0)
      isUnboxingStub := fun _ => .done (.ok false)
      wrappedMethod := fun method => .done (.ok method) } }
  strategy := {
    name := "Scripted"
    needsCapture := fun _ row => .done (.ok (decide (row ∉ alone)))
    forceCompile := fun _ method => compileAll (script method)
    resolver := ({ breaking := [⟨0x0A000005⟩], refused := [], images := [], distance := 0 } :
      TokenMap).resolver }
  loader := {
    load := fun _ world => .ok ⟨3, [], []⟩ world
    loadBytes := fun _ world => .ok ⟨3, [], []⟩ world }
  parser := .standard
  input := ""

def scriptedRules : CaptureRules Shelves World where
  resolver := (scriptedPlan [] fun _ => []).strategy.resolver
  flavor := .v45
  architecture := .x64

/-- Wherever a call comes from, the one clause routine is found. -/
theorem locates_guarding (row : Nat) :
    shelvesOutlook.around.Locates (shelvesOutlook.calls row) scriptedRules := by
  intro call admitted workspace here
  refine ⟨guardingReader, workspace, rfl, ⟨here, fun _ => rfl⟩, ?_⟩
  rw [show call.jitInfo = Interface.address 0 from admitted]
  exact locate_guarding here

section

variable {ι : Type} {S T : Workspace Shelves World → (ι → Workspace Shelves World) → Prop}

/-- Errands that have ended with one result are alike. -/
theorem like_done {ε α : Type} {admits : CompileCall → Prop} {gives : Except ε α → Prop}
    {workspace : Workspace Shelves World} {variants : ι → Workspace Shelves World}
    (related : S workspace variants) {result : Except ε α} (given : gives result) :
    (Errand.done result).Like S admits gives workspace (fun _ => .done result) variants :=
  ⟨given, variants, fun _ => rfl, related⟩

/-- Errands that make the same calls are alike. -/
theorem like_compileAll {admits : CompileCall → Prop} {calls : List CompileCall}
    (admitted : ∀ call ∈ calls, admits call)
    {workspace : Workspace Shelves World} {variants : ι → Workspace Shelves World}
    (related : S workspace variants) :
    (compileAll calls).Like S admits (fun _ => True) workspace (fun _ => compileAll calls)
      variants := by
  induction calls generalizing workspace variants with
  | nil => exact like_done related trivial
  | cons call calls ih =>
    obtain ⟨first, rest⟩ := List.forall_mem_cons.mp admitted
    exact ⟨first, fun _ _ => compileAll calls, variants, fun _ => rfl, related,
      fun _ _ _ related => ih rest related⟩

variable {row : Nat} {alone alone' : List Nat} {script script' : Handle → List CompileCall}

/-- Scripted plans do the same for a row if they leave it alone or not and make the same calls. -/
theorem worksAlike_scripted
    (possible : ∀ {workspace variants}, S workspace variants →
      shelvesOutlook.possible workspace ∧ ∀ i, shelvesOutlook.possible (variants i))
    (quiet : ∀ {workspace variants}, S workspace variants → ∀ {after afters},
      shelvesOutlook.around.quiet workspace after →
        (∀ i, shelvesOutlook.around.quiet (variants i) (afters i)) → S after afters)
    (output : ∀ {workspace variants}, S workspace variants →
      ∀ i, (variants i).output.isNone = workspace.output.isNone)
    (store : ∀ {workspace variants}, S workspace variants → ∀ body,
      (∀ i, (storeBody row body (variants i)).1 = (storeBody row body workspace).1) ∧
        reached S T ((storeBody row body workspace).1.map fun _ => true)
          (storeBody row body workspace).2 fun i => (storeBody row body (variants i)).2)
    (same_alone : row ∈ alone ↔ row ∈ alone')
    (same_calls : ∀ handle, shelvesOutlook.handles row handle → script' handle = script handle)
    (calls : ∀ handle, ∀ call ∈ script handle, call.jitInfo = Interface.address 0) :
    WorksAlike shelvesOutlook.around (shelvesOutlook.calls row) (shelvesOutlook.handles row) S T
      (scriptedPlan alone script) (scriptedPlan alone' script') scriptedRules scriptedRules
      row where
  answered := ⟨fun here => ⟨here, fun _ => rfl⟩, fun _ => told_none⟩
  shared := {
    possible
    quiet
    output
    compile := by
      intro workspace variants related call _ function
      obtain ⟨here, there⟩ := possible related
      exact ⟨fun _ => rfl, quiet related ⟨here, fun _ => rfl⟩ fun i => ⟨there i, fun _ => rfl⟩⟩
    read := by
      intro workspace variants related call admitted good readers_eq reader is_good readers
        are_good method count
      obtain rfl : (fun reader => reader = guardingReader) = good := Except.ok.inj readers_eq
      obtain rfl : reader = guardingReader := is_good
      obtain rfl : readers = fun _ => guardingReader := funext are_good
      obtain ⟨here, there⟩ := possible related
      exact ⟨fun i => (read_guarding _ method count here (there i)).1,
        quiet related (read_guarding _ method count here here).2
          fun i => (read_guarding _ method count (there i) (there i)).2⟩ }
  locates := locates_guarding row
  locates' := locates_guarding row
  resolve _ _ _ _ related := like_done related trivial
  methodHandle related := like_done related (by rintro _ ⟨⟩; rfl)
  needsCapture related := by
    have same : decide (row ∉ alone') = decide (row ∉ alone) := by simp [same_alone]
    change Errand.Like S _ _ (.done (.ok (decide (row ∉ alone)))) _
      (fun _ => .done (.ok (decide (row ∉ alone')))) _
    rw [same]
    exact like_done related trivial
  forceCompile related handle is_handle := by
    change Errand.Like S _ _ (compileAll (script handle)) _
      (fun _ => compileAll (script' handle)) _
    rw [same_calls handle is_handle]
    exact like_compileAll (calls handle) related
  store := store

end

/-- A row that sees its shelf sees what is stored for it. -/
theorem sees_shelves : shelvesOutlook.Sees := by
  intro row workspace other _ _ same
  have stored (workspace : Workspace Shelves World) : storedBody row workspace =
      (shelvesOutlook.view row workspace).map fun seen => .ok seen.1 := by
    obtain ⟨_ | shelves, world⟩ := workspace <;> rfl
  rw [stored, stored, same]

/-- What is put on the shelf of a row for a body, by what the row sees. -/
def shelved (body : Body.MethodBody) : Option (Option Bytes × Bool) → Except Fault Bytes
  | none => .error .noOutputModule
  | some (_, true) => .error (.other "sealed")
  | some (_, false) => body.encode .null

def putBody (row : Nat) (data : Bytes) (workspace : Workspace Shelves World) :
    Workspace Shelves World :=
  { workspace with output := workspace.output.map fun shelves =>
      { shelves with bodies := (row, data) :: shelves.bodies } }

/-- What storing comes to depends on what the row sees. -/
theorem storeBody_shelves (row : Nat) (body : Body.MethodBody)
    (workspace : Workspace Shelves World) :
    storeBody row body workspace =
      match shelved body (shelvesOutlook.view row workspace) with
      | .ok data => (.ok (), putBody row data workspace)
      | .error fault => (.error fault, workspace) := by
  obtain ⟨_ | shelves, world⟩ := workspace
  · rfl
  · have replaced : ModuleStore.replaceBody row body shelves =
      if row ∈ shelves.sealed then .error (.other "sealed") shelves
      else
        match body.encode .null with
        | .ok data => .ok () { shelves with bodies := (row, data) :: shelves.bodies }
        | .error fault => .error fault shelves := rfl
    have seen : shelvesOutlook.view row ⟨some shelves, world⟩ =
      some (shelves.bodies.lookup row, decide (row ∈ shelves.sealed)) := rfl
    unfold storeBody
    dsimp only
    rw [replaced, seen]
    by_cases isSealed : row ∈ shelves.sealed
    · simp [isSealed, shelved]
    · simp only [isSealed, if_false, decide_false, shelved]
      cases body.encode .null <;> rfl

/-- Storing for a row is seen by that row only. -/
theorem view_putBody (row other : Nat) (data : Bytes) (workspace : Workspace Shelves World) :
    shelvesOutlook.view other (putBody row data workspace) =
      (shelvesOutlook.view other workspace).map fun seen =>
        (if other = row then some data else seen.1, seen.2) := by
  obtain ⟨_ | shelves, world⟩ := workspace
  · rfl
  · by_cases same : other = row
    · subst same
      simp [shelvesOutlook, putBody]
    · have other_row : (other == row) = false := beq_eq_false_iff_ne.mpr same
      simp [shelvesOutlook, putBody, List.lookup_cons, other_row, same]

variable {row : Nat} {alone alone' : List Nat} {script script' : Handle → List CompileCall}

/-- Scripted plans leave other rows alone, as long as their calls come through the one interface. -/
theorem apart_scripted
    (calls : ∀ handle, ∀ call ∈ script handle, call.jitInfo = Interface.address 0) :
    shelvesOutlook.Apart (scriptedPlan alone script) scriptedRules := by
  intro row start _
  refine worksAlike_scripted (fun related => ⟨related.1.1, fun i => i.elim⟩) ?_
    (fun _ i => i.elim) ?_ Iff.rfl (fun _ _ => rfl) calls
  · rintro workspace variants ⟨⟨here, kept⟩, stored⟩ after afters ⟨possible, same⟩ -
    exact ⟨⟨possible, fun other apart => (same other).trans (kept other apart)⟩,
      (sees_shelves row here possible (same row)).trans stored⟩
  · rintro workspace variants related body
    refine ⟨fun i => i.elim, ?_⟩
    rw [storeBody_shelves]
    cases shelved body (shelvesOutlook.view row workspace) with
    | error fault => exact related
    | ok data =>
      refine ⟨related.1.1, fun other apart => ?_⟩
      rw [← related.1.2 other apart]
      change shelvesOutlook.view other (putBody row data workspace) = _
      rw [view_putBody]
      simp [apart]

/-- Two scripted plans that treat a row alike do the same for it, whatever they do for the others.
-/
theorem sameFor_scripted (same_alone : row ∈ alone ↔ row ∈ alone')
    (same_calls : ∀ handle, shelvesOutlook.handles row handle → script' handle = script handle)
    (calls : ∀ handle, ∀ call ∈ script handle, call.jitInfo = Interface.address 0) :
    shelvesOutlook.SameFor row (scriptedPlan alone script) (scriptedPlan alone' script')
      scriptedRules scriptedRules := by
  refine worksAlike_scripted (fun related => ⟨related.1, fun i => (related.2 i).1⟩) ?_ ?_ ?_
    same_alone same_calls calls
  · rintro workspace variants ⟨-, alike⟩ after afters ⟨possible, same⟩ others
    exact ⟨possible, fun i => ⟨(others i).1,
      ((others i).2 row).trans ((alike i).2.trans (same row).symm)⟩⟩
  · rintro workspace variants ⟨-, alike⟩ i
    have same := congrArg Option.isNone (alike i).2
    simpa [shelvesOutlook] using same
  · rintro workspace variants ⟨here, alike⟩ body
    simp only [storeBody_shelves, (alike _).2]
    cases shelved body (shelvesOutlook.view row workspace) with
    | error fault => exact ⟨fun _ => rfl, here, alike⟩
    | ok data =>
      refine ⟨fun _ => rfl, here, fun i => ⟨(alike i).1, ?_⟩⟩
      dsimp only
      rw [view_putBody, view_putBody, (alike i).2]

/-- A call that has a method compiled whose code has a clause. -/
def guarded (method : Handle) (code : Bytes) : CompileCall :=
  { returning method with
    jitInfo := Interface.address 0
    info := some {
      methodHandle := method
      moduleHandle := 0x10
      code := some code
      codeSize := UInt32.ofNat code.length
      maxStack := 8
      clauseCount := 1
      options := 0x10
      localsCount := 0
      locals := none } }

def guardedCode : Bytes := [0x00, 0xDE, 0x01, 0xDC, 0x2A]

/-- Guarded code with a call whose token cannot be mapped. -/
def unmappedCode : Bytes := [0x00, 0xDE, 0x01, 0xDC, 0x28, 5, 0, 0, 0x0A, 0x2A]

/-- Each method is compiled once, and the last row is left alone. -/
def calmPlan : Plan Shelves World := scriptedPlan [3] fun handle => [guarded handle guardedCode]

/-- The first method makes the callback break down, and the last one is compiled twice. -/
def stormyPlan : Plan Shelves World := scriptedPlan [] fun handle =>
  .replicate (if handle = 48 then 2 else 1)
    (guarded handle (if handle = 16 then unmappedCode else guardedCode))

/-- A session on the shelves, with the compiler's interface redirected. -/
def shelvesSweep : SweepState Shelves World where
  patches := ⟨.x64, [], false⟩
  session := Session.start
    { kind := .table
      site := { address := 0, found := [], redirected := [], routine := 0x5000 }
      slot := { owner := 1, layout := .v40, replaced := 0x5000 }
      installed := true }
    0x10 scriptedRules
    { Process.idle .fresh ⟨some ⟨3, [], []⟩,
        { World.ofMemory ⟨⟨[]⟩, [], []⟩ with interfaces := [guarding] }⟩ with
      filter := .disarmed (.ofFlavor .v45)
      methodSlot := some { owner := 1, layout := .v40, replaced := 0x5000 }
      sessionHeld := true }

/-- The sweep of the shelves begins at rest, recording and in a workspace that may come about. -/
theorem poised_shelvesSweep : Poised shelvesOutlook scriptedRules shelvesSweep where
  rest := ⟨rfl, rfl, rfl, rfl⟩
  recording := ⟨rfl, Resolver.sound_ofFlavor shelvesOutlook.facts .v45, rfl,
    fun _ impossible => by cases impossible⟩
  possible := ⟨rfl, rfl⟩

/-- Whatever becomes of the other rows, the second one is captured as it was. -/
theorem rows_independent_stormy :
    ∃ summary final summary' final',
      calmPlan.captureAll shelvesSweep = .ok summary final ∧
      (summary.captured = 2 ∧ summary.failed = 0 ∧ summary.skipped = 1) ∧
      stormyPlan.captureAll shelvesSweep = .ok summary' final' ∧
      (summary'.captured = 1 ∧ summary'.failed = 2 ∧ summary'.skipped = 0) ∧
      stormyPlan.classOf shelvesSweep 2 = calmPlan.classOf shelvesSweep 2 ∧
      storedBody 2 final'.session.process.world = storedBody 2 final.session.process.world ∧
      ∃ data, storedBody 2 final.session.process.world = some (.ok (some data)) := by
  have calm : shelvesOutlook.Apart calmPlan scriptedRules := by
    refine apart_scripted fun handle call mem => ?_
    obtain rfl := List.mem_singleton.mp mem
    rfl
  have stormy : shelvesOutlook.Apart stormyPlan scriptedRules := by
    refine apart_scripted fun handle call mem => ?_
    obtain rfl := List.eq_of_mem_replicate mem
    rfl
  have same : shelvesOutlook.SameFor 2 calmPlan stormyPlan scriptedRules scriptedRules := by
    refine sameFor_scripted (by decide) ?_ fun handle call mem => ?_
    · rintro _ rfl
      rfl
    · obtain rfl := List.mem_singleton.mp mem
      rfl
  obtain ⟨summary, final, swept, ⟨-, captured, failed, skipped⟩, -, -, -, others⟩ :=
    rows_independent sees_shelves calm poised_shelvesSweep
  obtain ⟨same_class, summary', final', swept', same_stored⟩ :=
    others stormyPlan scriptedRules shelvesSweep stormy poised_shelvesSweep rfl 2 (by decide)
      (by decide) (by decide) same rfl
  obtain ⟨_, _, again, ⟨-, captured', failed', skipped'⟩, -⟩ :=
    rows_independent sees_shelves stormy poised_shelvesSweep
  cases swept'.symm.trans again
  refine ⟨summary, final, summary', final', swept,
    ⟨captured.trans rfl, failed.trans rfl, skipped.trans rfl⟩, swept',
    ⟨captured'.trans rfl, failed'.trans rfl, skipped'.trans rfl⟩, same_class, same_stored, ?_⟩
  cases swept
  exact ⟨_, rfl⟩

end

end CilCapture.Sweep
