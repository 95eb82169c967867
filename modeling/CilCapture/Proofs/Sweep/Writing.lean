import CilCapture.Proofs.Image.Loading
import CilCapture.Proofs.Sweep.Stages

/-!
# When the output is written

A sweep may be given any way to write modules (`Plan.runWith`), and what it comes to shows how it
makes use of it: either not at all, or by one call, in a state that everything before has led to
whatever the way of writing (`run_writesReady`). In that state redirect and patches are down, the
packer's code has been removed if it is to be, and no stand-alone signature is without a blob
(`fillRows_spec`).

A run that uses the writer twice, or in another state, would come to something else for some writer.
So the statement is for every writer at once, and the proof follows the stages: none but the last
has a use for it (`countRows_withWriter`, `fillSignatures_withWriter`).

That every signature has a blob needs that setting a signature sets one row only (`SetsOwnRow`),
since the rows are filled one after the other.
-/

namespace CilCapture

/-- A way to write modules. -/
abbrev Writer (M W : Type) := String → WriteOptions → M → EStateM Fault W Unit

/-- The same modules, written in another way. -/
@[reducible]
def ModuleStore.withWriter {M W : Type} (store : ModuleStore M W) (writer : Writer M W) :
    ModuleStore M W :=
  { store with write := writer }

namespace Sweep

open Capture Compile Engine Hook Memory

variable {M W : Type} [store : ModuleStore M W]

/-! ## Signatures -/

/-- A module store in which setting a signature changes its row and no other. -/
structure SetsOwnRow (M : Type) {W : Type} [ModuleStore M W] : Prop where
  count : ∀ {row : Nat} {blob : Bytes} {module_ after : M},
    ModuleStore.setSignature row blob module_ = .ok () after →
    ModuleStore.signatureCount after = ModuleStore.signatureCount module_
  own : ∀ {row : Nat} {blob : Bytes} {found : Option Bytes} {module_ after : M},
    ModuleStore.setSignature row blob module_ = .ok () after →
    ModuleStore.signature row module_ = .ok found →
    ModuleStore.signature row after = .ok (some blob)
  others : ∀ {row other : Nat} {blob : Bytes} {module_ after : M},
    ModuleStore.setSignature row blob module_ = .ok () after → other ≠ row →
    ModuleStore.signature other after = ModuleStore.signature other module_

/-- A row that keeps its blob, or is given the placeholder where it had none. -/
def Filled (row : Nat) (before after : M) : Prop :=
  (∃ blob, ModuleStore.signature row before = .ok (some blob) ∧
    ModuleStore.signature row after = .ok (some blob)) ∨
  ModuleStore.signature row before = .ok none ∧
    ModuleStore.signature row after = .ok (some [0x07, 0x01, 0x08])

/-- A row that was filled has a blob. -/
theorem Filled.exists_blob {row : Nat} {before after : M} (filled : Filled row before after) :
    ∃ blob, ModuleStore.signature row after = .ok (some blob) := by
  rcases filled with ⟨blob, -, kept⟩ | ⟨-, placed⟩
  · exact ⟨blob, kept⟩
  · exact ⟨_, placed⟩

/-- A row that already has a blob is passed over. -/
theorem fillRows_of_some {row : Nat} {rows : List Nat} {module_ : M} {blob : Bytes}
    (present : ModuleStore.signature row module_ = .ok (some blob)) :
    fillRows (row :: rows) module_ = fillRows rows module_ := by
  have looked : settle (ModuleStore.signature row module_) module_ =
      .ok (some blob) module_ := by rw [present]; rfl
  exact (run_bind_of_ok rfl).trans (run_bind_of_ok looked)

/-- A row without a blob is given the placeholder, if the module allows it. -/
theorem fillRows_of_none {row count : Nat} {rows : List Nat} {module_ final : M}
    (absent : ModuleStore.signature row module_ = .ok none)
    (done : fillRows (row :: rows) module_ = .ok count final) :
    ∃ after rest, ModuleStore.setSignature row Signature.placeholder module_ = .ok () after ∧
      fillRows rows after = .ok rest final := by
  have looked : settle (ModuleStore.signature row module_) module_ = .ok none module_ := by
    rw [absent]
    rfl
  obtain ⟨_, _, taken, done⟩ := run_bind_eq_ok.mp done
  cases taken
  rw [run_bind_of_ok looked] at done
  obtain ⟨_, after, set, done⟩ := run_bind_eq_ok.mp done
  obtain ⟨rest, last, more, returned⟩ := run_bind_eq_ok.mp done
  cases returned
  exact ⟨after, rest, set, more⟩

/-- Filling has looked at the first of its rows with success. -/
theorem signature_of_fillRows {row count : Nat} {rows : List Nat} {module_ final : M}
    (done : fillRows (row :: rows) module_ = .ok count final) :
    ∃ found, ModuleStore.signature row module_ = .ok found := by
  obtain ⟨_, _, taken, done⟩ := run_bind_eq_ok.mp done
  cases taken
  obtain ⟨found, _, looked, -⟩ := run_bind_eq_ok.mp done
  exact ⟨found, (settle_eq_ok looked).2⟩

/-- Each of the rows is filled, and all others are left alone. -/
theorem fillRows_spec (ownRow : SetsOwnRow M) {rows : List Nat} {count : Nat} {module_ final : M}
    (done : fillRows rows module_ = .ok count final) :
    ModuleStore.signatureCount final = ModuleStore.signatureCount module_ ∧
      (∀ row ∈ rows, Filled row module_ final) ∧
      ∀ row ∉ rows, ModuleStore.signature row final = ModuleStore.signature row module_ := by
  induction rows generalizing count module_ with
  | nil =>
    cases done
    exact ⟨rfl, nofun, fun _ _ => rfl⟩
  | cons row rows ih =>
    obtain ⟨found, looked⟩ := signature_of_fillRows done
    cases found with
    | some blob =>
      rw [fillRows_of_some looked] at done
      obtain ⟨count_eq, filled, left⟩ := ih done
      refine ⟨count_eq, ?_, fun other unused => left other (List.not_mem_of_not_mem_cons unused)⟩
      intro other mem
      -- a row listed again is settled by the later visit, since the first one left it as it was
      by_cases again : other ∈ rows
      · exact filled other again
      · obtain rfl := (List.mem_cons.mp mem).resolve_right again
        exact .inl ⟨blob, looked, (left other again).trans looked⟩
    | none =>
      obtain ⟨after, rest, set, more⟩ := fillRows_of_none looked done
      obtain ⟨count_eq, filled, left⟩ := ih more
      have placed := ownRow.own set looked
      refine ⟨count_eq.trans (ownRow.count set), ?_, ?_⟩
      · intro other mem
        by_cases same : other = row
        · subst same
          refine .inr ⟨looked, ?_⟩
          -- this visit gave the row its own signature, which a later one finds and keeps
          by_cases again : other ∈ rows
          · rcases filled other again with ⟨blob, before, kept⟩ | ⟨before, -⟩
            · cases placed.symm.trans before
              exact kept
            · cases placed.symm.trans before
          · exact (left other again).trans placed
        · have before := ownRow.others set same
          have there := filled other ((List.mem_cons.mp mem).resolve_left same)
          unfold Filled at there ⊢
          rwa [before] at there
      · intro other unused
        obtain ⟨different, unused⟩ := List.ne_and_not_mem_of_not_mem_cons unused
        exact (left other unused).trans (ownRow.others set different)

/-- Where every row has a blob there is nothing to fill. -/
theorem fillRows_of_full {rows : List Nat} {module_ : M}
    (full : ∀ row ∈ rows, ∃ blob, ModuleStore.signature row module_ = .ok (some blob)) :
    fillRows rows module_ = .ok 0 module_ := by
  induction rows with
  | nil => rfl
  | cons row rows ih =>
    obtain ⟨⟨blob, present⟩, full⟩ := List.forall_mem_cons.mp full
    rw [fillRows_of_some present]
    exact ih full

/-- Filling leaves as many rows as there were, each of them with the blob it had or the placeholder.
-/
theorem fillSignatures_spec (ownRow : SetsOwnRow M) {count : Nat} {module_ final : M}
    (done : fillSignatures module_ = .ok count final) :
    ModuleStore.signatureCount final = ModuleStore.signatureCount module_ ∧
      ∀ row, 1 ≤ row → row ≤ ModuleStore.signatureCount final → Filled row module_ final := by
  obtain ⟨count_eq, filled, -⟩ := fillRows_spec ownRow done
  refine ⟨count_eq, ?_⟩
  intro row first last
  apply filled
  rw [List.mem_range'_1]
  omega

/-- Filling the signatures once more changes nothing. -/
theorem fillSignatures_again (ownRow : SetsOwnRow M) {count : Nat} {module_ final : M}
    (done : fillSignatures module_ = .ok count final) : fillSignatures final = .ok 0 final := by
  obtain ⟨-, filled⟩ := fillSignatures_spec ownRow done
  apply fillRows_of_full
  intro row mem
  obtain ⟨first, last⟩ := List.mem_range'_1.mp mem
  exact (filled row first (by omega)).exists_blob

/-! ## Ways to write -/

section

variable (writer : Writer M W)

/-- The search for the constructor writes nothing. -/
theorem firstTrampoline_withWriter (module_ : M) (tokens : List Token) :
    @firstTrampoline M W (store.withWriter writer) module_ tokens =
      firstTrampoline module_ tokens := by
  induction tokens with
  | nil => rfl
  | cons token tokens ih =>
    simp only [firstTrampoline, ih]
    rfl

/-- Filling signatures does not write the module. -/
theorem fillSignatures_withWriter :
    @fillSignatures M W (store.withWriter writer) = fillSignatures := by
  have rows_eq (rows : List Nat) :
      @fillRows M W (store.withWriter writer) rows = fillRows rows := by
    induction rows with
    | nil => rfl
    | cons row rows ih =>
      simp only [fillRows, ih]
      rfl
  unfold fillSignatures
  simp only [rows_eq]
  rfl

variable (plan : Plan M W)

/-- Saves the module in some way. -/
def Plan.saveWith (summary : Summary) (module_ : M) : SweepStep M W Summary :=
  @Plan.save M W (store.withWriter writer) plan summary module_

/-- Whether something was captured decides whether the module is written. -/
theorem saveWith_eq (summary : Summary) (module_ : M) :
    plan.saveWith writer summary module_ =
      if summary.captured = 0 then do
        setOutput (some module_)
        return summary
      else do
        let path := plan.context.settings.outputPath plan.input
        onWorld (writer path plan.context.settings.writeOptions module_)
        setOutput (some module_)
        return { summary with output := some path } := rfl

variable [Introspection W] [NativeCode W]

/-- Capturing rows does not write the module. -/
theorem countRows_withWriter (rows : List Nat) (summary : Summary) (state : SweepState M W) :
    @Plan.countRows M W (store.withWriter writer) _ _ plan rows summary state =
      plan.countRows rows summary state := by
  have row_eq : @Plan.countRow M W (store.withWriter writer) _ _ plan = plan.countRow := rfl
  induction rows generalizing summary state with
  | nil => rfl
  | cons row rows ih => simp only [Plan.countRows, ih, row_eq]

/-- Finishes the output, to be written in some way. -/
def Plan.finishWith (summary : Summary) : SweepStep M W Summary :=
  @Plan.finish M W (store.withWriter writer) _ _ plan summary

/-- Finishing by its stages; the writer has a part in the last one only. -/
theorem finishWith_eq (summary : Summary) (state : SweepState M W) :
    plan.finishWith writer summary state =
      match state.output with
      | none => .error .noOutputModule state
      | some output =>
        match plan.strip output (state.withOutput none) with
        | .error cause after => .error cause after
        | .ok stripped ready =>
          match fillSignatures stripped with
          | .error cause _ => .error cause ready
          | .ok _ module_ => plan.saveWith writer summary module_ ready := by
  have finished := @finish_eq M W (store.withWriter writer) _ _ plan summary state
  rw [fillSignatures_withWriter] at finished
  exact finished

variable [AddressSpace W]

/-- Runs a sweep whose output is written in some way. -/
def Plan.runWith : SweepStep M W Summary := @Plan.run M W (store.withWriter writer) _ _ _ plan

/-- A sweep comes to finishing in the same way, however its output is to be written. -/
theorem untilFinish_withWriter :
    @Plan.untilFinish M W (store.withWriter writer) _ _ _ plan = plan.untilFinish := by
  have selected : @selectConstructor M W (store.withWriter writer) plan.context.packed =
      selectConstructor plan.context.packed := by
    unfold selectConstructor
    simp only [firstTrampoline_withWriter]
    rfl
  unfold Plan.untilFinish Plan.sweep Plan.bringUp Plan.captureAll
  simp only [selected, countRows_withWriter]
  rfl

/-- Up to the finishing, a run has no use for the writer. -/
theorem runWith_eq : plan.runWith writer = plan.untilFinish >>= plan.finishWith writer := by
  rw [← untilFinish_withWriter writer]
  exact @run_eq M W (store.withWriter writer) _ _ _ plan

/-! ## The moment of writing -/

/-- What leads to writing the output: the sweep with patches and redirect in place and without, its
output as it was swept and stripped, and as it is written. -/
structure Completion (M W : Type) where
  summary : Summary
  swept : SweepState M W
  down : SweepState M W
  output : M
  stripped : M
  ready : SweepState M W
  module_ : M

/-- A sweep comes to writing its output: something was captured, redirect and patches were taken
down without a fault, the packer's code was removed exactly if nothing asks to keep it, and every
signature was filled. -/
structure Plan.ComesToWrite (plan : Plan M W) (start : SweepState M W)
    (completion : Completion M W) : Prop where
  captured : 0 < completion.summary.captured
  swept : ∃ patched up, onPatches PatchSet.apply start = .ok () patched ∧
    Plan.hookOrRestore patched = .ok () up ∧
    plan.sweep up = .ok completion.summary completion.swept
  takenDown : Plan.takeDown completion.swept = .ok () completion.down
  removed : completion.ready.session.redirect.installed = false
  withdrawn : slotOf completion.ready.session.redirect.kind completion.ready.session.process = none
  unapplied : completion.ready.patches.applied = false
  loaded : completion.down.output = some completion.output
  stripped :
    if plan.context.settings.keepAll = false ∧ plan.context.settings.keepRuntime = false then
      perform (plan.strategy.removeRuntimeSupport plan.context completion.output)
        (completion.down.withOutput none) = .ok completion.stripped completion.ready
    else completion.stripped = completion.output ∧
      completion.ready = completion.down.withOutput none
  count_eq : ModuleStore.signatureCount completion.module_ =
    ModuleStore.signatureCount completion.stripped
  filled : ∀ row, 1 ≤ row → row ≤ ModuleStore.signatureCount completion.module_ →
    Filled row completion.stripped completion.module_
  complete : ∀ row, 1 ≤ row → row ≤ ModuleStore.signatureCount completion.module_ →
    ∃ blob, ModuleStore.signature row completion.module_ = .ok (some blob)

omit [AddressSpace W] in
/-- Finishing either makes no use of the way to write, or saves the module that it made ready, of
which something was captured. -/
theorem finishWith_cases (plan : Plan M W) (summary : Summary)
    (state : SweepState M W) :
    (∀ writer, plan.finishWith writer summary state = plan.finish summary state) ∨
      0 < summary.captured ∧ ∃ output stripped ready count module_,
        state.output = some output ∧
        plan.strip output (state.withOutput none) = .ok stripped ready ∧
        fillSignatures stripped = .ok count module_ ∧
        ∀ writer, plan.finishWith writer summary state =
          plan.saveWith writer summary module_ ready := by
  have own : plan.finish summary state = plan.finishWith store.write summary state := rfl
  simp only [own, finishWith_eq]
  cases state.output with
  | none => exact .inl fun _ => rfl
  | some output =>
    dsimp only
    cases stripped_eq : plan.strip output (state.withOutput none) with
    | error cause after => exact .inl fun _ => rfl
    | ok stripped ready =>
      dsimp only
      cases filled_eq : fillSignatures stripped with
      | error cause after => exact .inl fun _ => rfl
      | ok count module_ =>
        by_cases nothing : summary.captured = 0
        · refine .inl fun writer => ?_
          simp only [saveWith_eq, if_pos nothing]
        · exact .inr ⟨Nat.pos_of_ne_zero nothing, output, stripped, ready, count, module_, rfl,
            stripped_eq, filled_eq, fun _ => rfl⟩

/-- What a sweep saves has everything behind it that is asked of a completion. -/
theorem comesToWrite (ownRow : SetsOwnRow M) {plan : Plan M W} {start down ready : SweepState M W}
    {summary : Summary} {output stripped module_ : M} {count : Nat}
    (before : plan.untilFinish start = .ok summary down) (captured : 0 < summary.captured)
    (loaded : down.output = some output)
    (stripped_eq : plan.strip output (down.withOutput none) = .ok stripped ready)
    (filled_eq : fillSignatures stripped = .ok count module_) :
    ∃ swept, plan.ComesToWrite start ⟨summary, swept, down, output, stripped, ready, module_⟩ := by
  obtain ⟨patched, up, swept, applied, hooked, capturing, takenDown⟩ :=
    untilFinish_eq_ok.mp before
  obtain ⟨removed, withdrawn, unapplied⟩ := down_of_takeDown takenDown
  obtain ⟨count_eq, filled⟩ := fillSignatures_spec ownRow filled_eq
  have rig := strip_rig plan output (down.withOutput none)
  rw [stripped_eq] at rig
  obtain ⟨patches_eq, redirect_eq, wiring_eq⟩ := rig
  have kind_eq : ready.session.redirect.kind = down.session.redirect.kind :=
    congrArg Redirect.kind redirect_eq
  have slot_eq := (slotOf_of_wiring wiring_eq down.session.redirect.kind).trans
    (slotOf_withWorld _ _ _)
  refine ⟨swept, ?_⟩
  constructor
  case captured => exact captured
  case swept => exact ⟨patched, up, applied, hooked, capturing⟩
  case takenDown => exact takenDown
  case removed => exact (congrArg Redirect.installed redirect_eq).trans removed
  case withdrawn =>
    show slotOf ready.session.redirect.kind ready.session.process = none
    rw [kind_eq]
    exact slot_eq.trans withdrawn
  case unapplied => exact (congrArg PatchSet.applied patches_eq).trans unapplied
  case loaded => exact loaded
  case stripped => exact strip_eq_ok stripped_eq
  case count_eq => exact count_eq
  case filled => exact filled
  case complete => exact fun row first last => (filled row first last).exists_blob

/-- The output is written only when it is ready. A sweep makes no use of the way to write, or calls
it once, for a module that it has come to with patches and redirect down, with something captured
and with all signatures in place. A module of which nothing was captured is never written, and
filling the signatures of a module twice is filling them once. -/
theorem run_writesReady (ownRow : SetsOwnRow M) (plan : Plan M W) (start : SweepState M W) :
    ((∀ writer, plan.runWith writer start = plan.run start) ∨
      ∃ completion, plan.ComesToWrite start completion ∧
        ∀ writer, plan.runWith writer start =
          (do
            let path := plan.context.settings.outputPath plan.input
            onWorld (writer path plan.context.settings.writeOptions completion.module_)
            setOutput (some completion.module_)
            return { completion.summary with output := some path }) completion.ready) ∧
    (∀ (summary : Summary) (state : SweepState M W), summary.captured = 0 →
      ∀ writer, plan.finishWith writer summary state = plan.finish summary state) ∧
    (∀ (module_ filled : M) (count : Nat), fillSignatures module_ = .ok count filled →
      fillSignatures filled = .ok 0 filled) := by
  refine ⟨?_, ?_, fun _ _ _ done => fillSignatures_again ownRow done⟩
  · have own : plan.run start = plan.runWith store.write start := rfl
    cases before : plan.untilFinish start with
    | error cause final =>
      have failed (writer : Writer M W) : plan.runWith writer start = .error cause final := by
        rw [runWith_eq]
        exact run_bind_eq_error.mpr (.inl before)
      refine .inl fun writer => ?_
      rw [own, failed, failed]
    | ok summary down =>
      have finishes (writer : Writer M W) :
          plan.runWith writer start = plan.finishWith writer summary down := by
        rw [runWith_eq]
        exact run_bind_of_ok before
      rcases finishWith_cases plan summary down with never | ⟨captured, output, stripped, ready,
        count, module_, loaded, stripped_eq, filled_eq, saves⟩
      · refine .inl fun writer => ?_
        rw [own, finishes, finishes, never, never]
      · obtain ⟨swept, comes⟩ := comesToWrite ownRow before captured loaded stripped_eq filled_eq
        refine .inr ⟨_, comes, ?_⟩
        intro writer
        rw [finishes, saves, saveWith_eq, if_neg (Nat.ne_of_gt captured)]
  · intro summary state nothing writer
    rcases finishWith_cases plan summary state with never | ⟨captured, -⟩
    · exact never writer
    · exact absurd nothing (Nat.ne_of_gt captured)

end

/-! ## Rehearsals -/

open Rehearsal

/-- An entry that was set is the one that is found. -/
theorem entry_set_self {row : Nat} {found : Option Bytes} {blob : Bytes}
    {rows : List (Option Bytes)} (present : TableModule.entry row rows = .ok found) :
    TableModule.entry row (rows.set (row - 1) (some blob)) = .ok (some blob) := by
  unfold TableModule.entry at present ⊢
  by_cases zero : row = 0
  · rw [if_pos zero] at present
    cases present
  · rw [if_neg zero] at present ⊢
    have bound : row - 1 < rows.length := by
      by_contra outside
      rw [List.getElem?_eq_none (Nat.le_of_not_lt outside)] at present
      cases present
    rw [List.getElem?_set_self bound]

/-- The other entries are as they were. -/
theorem entry_set_ne {row other : Nat} (positive : 0 < row) (different : other ≠ row)
    (entry : Option Bytes) (rows : List (Option Bytes)) :
    TableModule.entry other (rows.set (row - 1) entry) = TableModule.entry other rows := by
  unfold TableModule.entry
  by_cases zero : other = 0
  · rw [if_pos zero, if_pos zero]
  · have apart : row - 1 ≠ other - 1 := by omega
    rw [if_neg zero, if_neg zero, List.getElem?_set_ne apart]

/-- Setting a signature sets the entry of its row, which is none for row zero. -/
theorem table_setSignature {row : Nat} {blob : Bytes} {module_ after : TableModule}
    (set : TableModule.setSignature row blob module_ = .ok () after) :
    0 < row ∧
      after = { module_ with signatures := module_.signatures.set (row - 1) (some blob) } := by
  obtain ⟨_, _, taken, set⟩ := run_bind_eq_ok.mp set
  cases taken
  obtain ⟨_, _, looked, set⟩ := run_bind_eq_ok.mp set
  cases set
  obtain ⟨rfl, readable⟩ := settle_eq_ok looked
  obtain ⟨_, -, present⟩ := bind_eq_ok.mp readable
  refine ⟨Nat.pos_of_ne_zero ?_, rfl⟩
  rintro rfl
  cases present

/-- Setting a signature of a table changes its row and no other. -/
theorem table_setsOwnRow : SetsOwnRow TableModule where
  count := by
    intro row blob module_ after set
    obtain ⟨-, rfl⟩ := table_setSignature set
    exact List.length_set
  own := by
    intro row blob found module_ after set looked
    obtain ⟨-, rfl⟩ := table_setSignature set
    obtain ⟨_, allowed, present⟩ := bind_eq_ok.mp looked
    exact bind_eq_ok.mpr ⟨_, allowed, entry_set_self present⟩
  others := by
    intro row other blob module_ after set different
    obtain ⟨positive, rfl⟩ := table_setSignature set
    show (TableModule.allow _ module_ >>= fun _ =>
      TableModule.entry other (module_.signatures.set (row - 1) (some blob))) = _
    rw [entry_set_ne positive different]
    rfl

/-- A strategy under which a method is compiled by one call. -/
def compilesOnce : Strategy M World where
  name := "Once"
  needsCapture _ _ := .done (.ok true)
  forceCompile _ method := .compile (returning method) fun _ => .done (.ok ())

/-- A plan for a module that is loaded once more as its own output. -/
def snapshotPlan (strategy : Strategy M World) (module_ : M) : Plan M World where
  context := {
    settings := {}
    environment := default
    packed := module_
    host := {
      moduleHandle := 0x10
      imageBase := 0x400000
      methodHandle := fun token => .done (.ok (some (token.value.toNat * 16)))
      invoke := fun _ => .done (.ok ()) }
    routines := {
      reset := fun _ => .done (.ok ())
      doPrestub := fun _ => .done (.ok 0)
      isUnboxingStub := fun _ => .done (.ok false)
      wrappedMethod := fun method => .done (.ok method) } }
  strategy
  loader := {
    load := fun _ world => .ok module_ world
    loadBytes := fun _ world => .ok module_ world }
  parser := .standard
  input := "packed.exe"

/-- A sweep with nothing in place, of an image that is mapped behind the compiler's table. -/
def imageAtRest : SweepState M World where
  patches := .ofPatches .x86 []
  session := Session.start
    { kind := .table
      site := {
        address := 0x1000
        found := [0, 0, 0, 0]
        redirected := [0, 0x60, 0, 0]
        routine := 0x5000 }
      slot := { owner := 1, layout := .v40, replaced := 0x5000 }
      installed := false }
    0x10 { resolver := .identity, flavor := .v45, architecture := .x64 }
    { Process.idle .fresh ⟨none, .ofMemory ⟨⟨[⟨0x1000, Bytes.zeros 4⟩,
        ⟨0x400000, Image.smallLayout.mapFile 0x11C Image.smallFile⟩]⟩, [], []⟩⟩ with
      sessionHeld := true }

/-- A module of one method, the second of whose signatures has no blob. -/
def unfilledModule : TableModule :=
  ⟨[some [0x06, 0x2A]], [some [0x07, 0x00], none], none, [], [], []⟩

set_option maxRecDepth 100000 in
/-- One method is captured, so the module is written, the blob it had kept and the missing one
filled in. -/
theorem run_writesReady_once :
    SetsOwnRow TableModule ∧ ∃ completion,
      (snapshotPlan compilesOnce unfilledModule).ComesToWrite imageAtRest completion ∧
        completion.module_.signatures = [some [0x07, 0x00], some [0x07, 0x01, 0x08]] := by
  refine ⟨table_setsOwnRow, ?_⟩
  obtain ⟨never | ⟨completion, comes, writes⟩, -, -⟩ :=
    run_writesReady table_setsOwnRow (snapshotPlan compilesOnce unfilledModule) imageAtRest
  · -- A writer that fails shows in the result.
    have refused := congrArg (fun result => (resultOf result).isOk)
      (never fun _ _ _ => throw .overrun)
    exact absurd refused (by decide +kernel)
  · have written := congrArg (fun result => (finalState result).output.map (·.signatures))
      (writes fun _ _ _ => pure ())
    refine ⟨completion, comes, Option.some.inj ?_⟩
    exact written.symm.trans (by decide +kernel)

end Sweep

end CilCapture
