import CilCapture.Proofs.Capture.Memory
import CilCapture.Proofs.Engine.Patch
import CilCapture.Proofs.Hook.Redirect
import CilCapture.Proofs.Sweep.CaptureRow
import CilCapture.Proofs.Sweep.Keeping

/-!
# Taking everything down

A sweep that starts with neither patches nor redirect in place ends so, whatever fails on the way
and however the sites overlap (`run_takesDown`).

All sites hold their own bytes before the sweep, which is one moment: `Down`. Between applying and
taking down the collaborators leave the sites alone (`Untouched`), so that all of those bytes can be
written back, and then each site holds what it held, whatever was written over it (`takeDown_spec`).
Where patches or redirect cannot be put up, what was written before is undone (`onPatches_apply`,
`hookOrRestore_cases`).

What the collaborators do in between is a run of any length, with callbacks in it, so all that is
used of it is that the sites are left alone. It is assumed of each of them by itself, in the form
that no byte of a site is changed and none is sealed.

The proof of taking down does not go back over the steps. Every saved byte was read at the one
moment before the sweep, and bytes read at one moment can be written back in any order.
-/

namespace CilCapture.Sweep

open Capture Compile Engine Hook Memory

variable {M W : Type}

/-! ## Sites -/

/-- The bytes of every site, as they were found. -/
def SweepState.originals (state : SweepState M W) : List Store :=
  state.session.redirect.site.original :: state.patches.patches.map Patch.original

section

variable [AddressSpace W] {possible : W → Prop}

/-- A world that has the bytes of some sites in common with another one, and in which the same of
them can be written. -/
structure Untouched (possible : W → Prop) (sites : List Store) (start world : W) : Prop where
  here : possible world
  reads : ∀ site ∈ sites, AddressSpace.read site.address site.data.length world =
    AddressSpace.read site.address site.data.length start
  writes : ∀ site ∈ sites,
    CanWrite world site.address site.data.length ↔ CanWrite start site.address site.data.length

/-- A possible world is untouched in itself. -/
theorem Untouched.refl {world : W} (here : possible world) (sites : List Store) :
    Untouched possible sites world world :=
  ⟨here, fun _ _ => rfl, fun _ _ => Iff.rfl⟩

/-- What was written makes no difference if the sites hold the same bytes again. -/
theorem untouched_of_written (memory : SteadyMemory possible) {sites : List Store}
    {start later : Workspace M W} (here : possible start.world) (written : Written start later)
    (reads : ∀ site ∈ sites, AddressSpace.read site.address site.data.length later =
      AddressSpace.read site.address site.data.length start) :
    Untouched possible sites start.world later.world where
  here := (workspace_memory.byteMemory memory.toByteMemory).possible_written here written
  reads := reads
  writes := by
    intro site _
    rw [← workspace_memory.canWrite_iff, ← workspace_memory.canWrite_iff]
    exact (workspace_memory.steadyMemory memory).canWrite_written here written _ _

/-- Sites that could be written when they were touched last can all be written back, and then hold
what they held at first, whatever was written over them in between. -/
theorem writtenBack (memory : SteadyMemory possible) {sites order : List Store}
    (same : ∀ store, store ∈ sites ↔ store ∈ order) {start up changed : Workspace M W}
    (here : possible start.world) (held : ∀ store ∈ sites, store.Held start)
    (written : Written start up)
    (writable : ∀ store ∈ sites, CanWrite up store.address store.data.length)
    (untouched : Untouched possible sites up.world changed.world) :
    ∃ restored, Stores order changed restored ∧
      Untouched possible sites start.world restored.world := by
  have steady := workspace_memory (M := M).steadyMemory memory
  have bytes := steady.toByteMemory
  have there : possible changed.world := untouched.here
  have writes (store : Store) (mem : store ∈ sites) :
      CanWrite changed store.address store.data.length ↔
        CanWrite up store.address store.data.length := by
    rw [workspace_memory.canWrite_iff, untouched.writes store mem, workspace_memory.canWrite_iff]
  have stored := stores_of_assured fun store mem =>
    steady.assured_of_canWrite there ((writes store ((same store).mpr mem)).mpr
      (writable store ((same store).mpr mem)))
  have back := bytes.overlaid_of_stores there stored
  refine ⟨_, stored, bytes.possible_written there stored.written, ?_, ?_⟩
  · intro site mem
    obtain ⟨found, read⟩ := bytes.readable_written here written (held site mem)
    have readable := (untouched.reads site mem).trans read
    have held_again := held_of_restored bytes here there
      (fun store mem => held store ((same store).mpr mem)) back ((same site).mp mem) readable
    exact held_again.trans (held site mem).symm
  · intro site mem
    rw [← workspace_memory.canWrite_iff, ← workspace_memory.canWrite_iff,
      steady.canWrite_written there stored.written, writes site mem]
    exact steady.canWrite_written here written _ _

end

/-! ## Before and after -/

/-- The slots are part of the wiring. -/
theorem slotOf_of_wiring {C : Type} {process later : Process C W}
    (same : later.wiring = process.wiring) (kind : HookKind) :
    slotOf kind later = slotOf kind process := by
  cases kind with
  | call => exact congrArg Wiring.compSlot same
  | table => exact congrArg Wiring.methodSlot same

/-- Where the slots lead otherwise makes no difference to one that is set. -/
theorem wiring_setSlot_congr {C : Type} {process later : Process C W}
    (same : later.wiring = process.wiring) (kind : HookKind) (slot : Option Slot) :
    (setSlot kind slot later).wiring = (setSlot kind slot process).wiring := by
  cases kind with
  | call => exact congrArg (fun wiring : Wiring C W => { wiring with compSlot := slot }) same
  | table => exact congrArg (fun wiring : Wiring C W => { wiring with methodSlot := slot }) same

/-- A slot that is empty can be withdrawn. -/
theorem wiring_withdraw {C : Type} {kind : HookKind} {process later : Process C W}
    (same : later.wiring = process.wiring) (withdrawn : slotOf kind process = none) :
    (setSlot kind none later).wiring = process.wiring := by
  rw [wiring_setSlot_congr same, ← withdrawn, setSlot_slotOf]

section

variable [AddressSpace W]

/-- A sweep with neither patches nor redirect in place, of which every site holds the bytes that
were found there. -/
structure Down (state : SweepState M W) : Prop where
  removed : state.session.redirect.installed = false
  withdrawn : slotOf state.session.redirect.kind state.session.process = none
  length_eq :
    state.session.redirect.site.redirected.length = state.session.redirect.site.found.length
  held : state.session.redirect.site.original.Held state.session.process.world
  unapplied : state.patches.applied = false
  recorded : state.patches.Recorded state.session.process.world

/-- Every site holds its bytes at the same moment. -/
theorem Down.held_originals {state : SweepState M W} (down : Down state) :
    ∀ store ∈ state.originals, store.Held state.session.process.world := by
  intro store mem
  rcases List.mem_cons.mp mem with rfl | mem
  · exact down.held
  · obtain ⟨patch, patch_mem, rfl⟩ := List.mem_map.mp mem
    exact (down.recorded patch patch_mem).held

/-- The state of a sweep that is, but for what its collaborators do elsewhere, as it was. -/
abbrev AsBefore (possible : W → Prop) (start : SweepState M W) : SweepState M W → Prop :=
  Rigged (Untouched possible start.originals start.session.process.world.world) start

/-- A sweep that is as one that is down is down itself. -/
theorem Down.of_asBefore {possible : W → Prop} {start state : SweepState M W} (down : Down start)
    (same : AsBefore possible start state) : Down state := by
  have held (store : Store) (mem : store ∈ start.originals) :
      store.Held state.session.process.world :=
    (same.here.reads store mem).trans (down.held_originals store mem)
  constructor
  · rw [same.redirect_eq]
    exact down.removed
  · rw [same.redirect_eq, slotOf_of_wiring same.wiring_eq]
    exact down.withdrawn
  · rw [same.redirect_eq]
    exact down.length_eq
  · rw [same.redirect_eq]
    exact held _ List.mem_cons_self
  · rw [same.patches_eq]
    exact down.unapplied
  · intro patch mem
    rw [same.patches_eq] at mem
    exact ⟨(down.recorded patch mem).length_eq,
      held _ (List.mem_cons_of_mem _ (List.mem_map_of_mem mem))⟩

/-- A prepared sweep whose patches were made before is down. -/
theorem down_of_prepare [ModuleStore M W] [NativeCode W] [CodeSpace W] {possible : W → Prop}
    (memory : GrowingMemory possible) (places : PlacesApart possible) {settings : Settings}
    {input : String} {environment : Environment} {table : OffsetTable}
    {routines : MethodRoutines W} {collaborators : Collaborators M W}
    (loads : ∀ {world after packed}, possible world →
      collaborators.loader.load input world = .ok packed after →
      possible after ∧ Extends world after)
    {process final : Process Recorder (Workspace M W)} {plan : Plan M W} {redirect : Redirect}
    {patches : PatchSet} (here : possible process.world.world)
    (vacant : ∀ kind, slotOf kind process = none) (unapplied : patches.applied = false)
    (recorded : patches.Recorded process.world)
    (prepared : prepare settings input environment table routines collaborators process =
      .ok (plan, redirect) final) :
    possible final.world.world ∧ Down { patches, session := { redirect, process := final } } := by
  unfold prepare at prepared
  obtain ⟨packed, loaded, opened, prepared⟩ := run_bind_eq_ok.mp prepared
  obtain ⟨redirect', fresh, created, prepared⟩ := run_bind_eq_ok.mp prepared
  obtain ⟨-, -, removed, found, -, same⟩ := create_eq_ok created
  cases prepared
  unfold Process.onWorld at opened
  split at opened
  next value world taken =>
    cases opened
    obtain ⟨there, still⟩ := loads here (onWorld_eq_ok taken)
    obtain ⟨reached, grown, held, length_eq⟩ :=
      found_of_findSite (workspace_growing memory) (workspace_places places) there found
    have slots : ∀ kind, slotOf kind fresh = none := fun kind =>
      (same kind).trans ((slotOf_withWorld kind process world).trans (vacant kind))
    refine ⟨reached, removed, ?_, length_eq, grown.keeps held, unapplied, ?_⟩
    · rw [← slots redirect.kind]
      cases redirect.kind <;> rfl
    · intro patch mem
      have sits := recorded patch mem
      exact ⟨sits.length_eq, grown.keeps (still.keeps sits.held)⟩
  next => cases opened

end

/-! ## Steps of the sweep -/

/-- The state after the patches took a step. -/
def SweepState.repatched (state : SweepState M W) (patches : PatchSet) (world : Workspace M W) :
    SweepState M W :=
  { state with patches, session := state.session.onProcess ({ · with world }) }

/-- Attempting a step on the patches never fails, and ends where the step does. -/
theorem attempt_onPatches
    {step : PatchSet → Workspace M W → Except Fault Unit × PatchSet × Workspace M W}
    {state : SweepState M W} {result : Except Fault Unit} {patches : PatchSet}
    {world : Workspace M W}
    (taken : step state.patches state.session.process.world = (result, patches, world)) :
    attempt (onPatches step) state = .ok result (state.repatched patches world) := by
  unfold attempt onPatches
  rw [taken]
  cases result <;> rfl

/-- Attempting a step on the session never fails, and ends where the step does. -/
theorem attempt_onSession {α : Type} {step : Session M W → Except Fault α × Session M W}
    {state : SweepState M W} {result : Except Fault α} {session : Session M W}
    (taken : step state.session = (result, session)) :
    attempt (onSession step) state = .ok result { state with session } := by
  unfold attempt onSession
  rw [taken]
  cases result <;> rfl

section

variable [AddressSpace W]

/-- Hooking is installing the redirect of a session at rest. -/
theorem hook_eq {session : Session M W} {result : Except Fault Unit} {redirect : Redirect}
    {process : Process Recorder (Workspace M W)}
    (installed : session.redirect.install session.idle.process = (result, redirect, process)) :
    session.hook = (result, { redirect, process }) :=
  congrArg (fun step => (step.1, Session.mk step.2.1 step.2.2)) installed

/-- If hooking succeeds there is nothing to restore. -/
theorem hookOrRestore_eq_ok {state : SweepState M W} {session : Session M W}
    (hooked : state.session.hook = (.ok (), session)) :
    Plan.hookOrRestore state = .ok () { state with session } :=
  run_bind_of_ok (attempt_onSession hooked)

/-- If hooking is refused the patches are restored, and the refusal is what is told. -/
theorem hookOrRestore_eq_error {state : SweepState M W} {session : Session M W} {fault : Fault}
    {patches : PatchSet} {world : Workspace M W}
    (refused : state.session.hook = (.error fault, session))
    (restored : state.patches.restore session.process.world = (.ok (), patches, world)) :
    Plan.hookOrRestore state =
      .error fault (SweepState.repatched { state with session } patches world) := by
  have taken : attempt (onPatches PatchSet.restore) { state with session } = _ :=
    attempt_onPatches restored
  exact (run_bind_of_ok (attempt_onSession refused)).trans (run_bind_of_ok taken)

/-- Unhooking that succeeds puts the session to rest. -/
theorem unhook_eq_ok {session : Session M W} {redirect : Redirect}
    {process : Process Recorder (Workspace M W)}
    (removed : session.redirect.remove session.process = (.ok (), redirect, process)) :
    session.unhook = (.ok (), Session.idle { redirect, process }) := by
  unfold Session.unhook
  rw [removed]

/-- Both parts of taking down succeed one after the other. -/
theorem takeDown_eq_ok {state : SweepState M W} {session : Session M W} {patches : PatchSet}
    {world : Workspace M W} (unhooked : state.session.unhook = (.ok (), session))
    (restored : state.patches.restore session.process.world = (.ok (), patches, world)) :
    Plan.takeDown state = .ok () (SweepState.repatched { state with session } patches world) := by
  have taken : attempt (onPatches PatchSet.restore) { state with session } = _ :=
    attempt_onPatches restored
  exact (run_bind_of_ok (attempt_onSession unhooked)).trans (run_bind_of_ok taken)

end

section

variable [AddressSpace W] {possible : W → Prop}

/-! ## Putting up -/

/-- A sweep whose patches and redirect have been put in place, and can be taken down. -/
structure Up (start up : SweepState M W) : Prop where
  x86 : start.patches.architecture = .x86
  patches_eq : up.patches = { start.patches with applied := true }
  redirect_eq : up.session.redirect = { start.session.redirect with installed := true }
  wiring_eq : (setSlot start.session.redirect.kind none up.session.process).wiring =
    start.session.process.wiring
  written : Written start.session.process.world up.session.process.world
  writable : ∀ site ∈ start.originals,
    CanWrite up.session.process.world site.address site.data.length

/-- What the patches of a sweep, once applied, have made of its workspace. -/
structure Patched (start : SweepState M W) (patched : Workspace M W) : Prop where
  x86 : start.patches.architecture = .x86
  stored : Stores start.patches.replacements start.session.process.world patched
  assured : ∀ patch ∈ start.patches.patches, patch.original.Assured patched

/-- The state of a sweep once its patches are applied. -/
def SweepState.patched (state : SweepState M W) (world : Workspace M W) : SweepState M W :=
  state.repatched { state.patches with applied := true } world

/-- Patches are applied, and then they can be taken back, or nothing has changed. -/
theorem onPatches_apply (memory : SteadyMemory possible) {state : SweepState M W}
    (here : possible state.session.process.world.world) (down : Down state) :
    (∃ world, onPatches PatchSet.apply state = .ok () (state.patched world) ∧
        Patched state world) ∨
      ∃ fault after, onPatches PatchSet.apply state = .error fault after ∧
        AsBefore possible state after := by
  have steady := workspace_memory (M := M).steadyMemory memory
  have recoverable : ∀ patch ∈ state.patches.patches, patch.Recoverable _ :=
    fun patch mem => Patch.recoverable_of_steady steady (down.recorded patch mem).length_eq
  unfold onPatches
  rcases PatchSet.apply_spec steady.toByteMemory here down.unapplied down.recorded recoverable with
    ⟨patched, done, x86, stored, assured⟩ | ⟨fault, kept, done, written, same⟩
  · rw [done]
    exact .inl ⟨patched, rfl, x86, stored, assured⟩
  · rw [done]
    refine .inr ⟨fault, _, rfl, rfl, rfl, rfl, ?_⟩
    exact untouched_of_written memory here written fun site _ => same _ _

/-- Once the redirect is written over the patches, each of the sites could be written. -/
theorem writable_of_hooked (memory : SteadyMemory possible) {state : SweepState M W}
    (here : possible state.session.process.world.world) (down : Down state)
    {patched world : Workspace M W} (isPatched : Patched state patched)
    (wrote : AddressSpace.write state.session.redirect.site.address
      state.session.redirect.site.redirected patched = .ok () world) :
    ∀ site ∈ state.originals, CanWrite world site.address site.data.length := by
  have steady := workspace_memory (M := M).steadyMemory memory
  have bytes := steady.toByteMemory
  have there := bytes.possible_written here isPatched.stored.written
  have more : Written patched world := .of_write wrote rfl
  intro site mem
  rcases List.mem_cons.mp mem with rfl | mem
  · have able := steady.canWrite_of_write there wrote
    rw [down.length_eq] at able
    exact (steady.canWrite_written there more _ _).mpr able
  · obtain ⟨patch, patch_mem, rfl⟩ := List.mem_map.mp mem
    obtain ⟨after, rewrote⟩ := isPatched.assured patch patch_mem world more
    exact steady.canWrite_of_write (bytes.possible_written there more) rewrote

/-- On top of patches the redirect is installed, or they are taken back and nothing has changed. -/
theorem hookOrRestore_cases (memory : SteadyMemory possible) {state : SweepState M W}
    (here : possible state.session.process.world.world) (down : Down state)
    {patched : Workspace M W} (isPatched : Patched state patched) :
    (∃ up, Plan.hookOrRestore (state.patched patched) = .ok () up ∧ Up state up) ∨
      ∃ fault after, Plan.hookOrRestore (state.patched patched) = .error fault after ∧
        AsBefore possible state after := by
  have process_world (world : Workspace M W) (slot : Option Slot) :
      (setSlot state.session.redirect.kind slot
        { (state.patched patched).session.idle.process with world }).world = world :=
    world_setSlot _ _ _
  have rewired (world : Workspace M W) :
      (setSlot state.session.redirect.kind none
        { (state.patched patched).session.idle.process with world }).wiring =
        state.session.process.wiring :=
    wiring_withdraw rfl down.withdrawn
  rcases state.session.redirect.install_cases (state.patched patched).session.idle.process with
    ⟨installed, -⟩ | ⟨-, ⟨world, wrote, done⟩ | ⟨fault, world, failed, done⟩⟩
  · exact absurd (down.removed.symm.trans installed) Bool.false_ne_true
  · refine .inl ⟨_, hookOrRestore_eq_ok (hook_eq done), isPatched.x86, rfl, rfl, ?_, ?_, ?_⟩
    · rw [setSlot_setSlot]
      exact rewired world
    · rw [process_world]
      exact isPatched.stored.written.trans (.of_write wrote rfl)
    · dsimp only
      rw [process_world]
      exact writable_of_hooked memory here down isPatched wrote
  -- the hook could not write: the patches are taken back, which needs them still in place
  · have bytes := workspace_memory (M := M).byteMemory memory.toByteMemory
    have there := bytes.possible_written here isPatched.stored.written
    have failing : Written patched world := .of_write failed rfl
    have written := isPatched.stored.written.trans failing
    have still := (bytes.overlaid_of_stores here isPatched.stored).sameBytes
      (bytes.sameBytes_of_failed there failed)
    obtain ⟨restored, taken_back, more, same⟩ := PatchSet.restore_spec bytes here written
      isPatched.x86 down.recorded still fun patch mem => (isPatched.assured patch mem).later failing
    rw [← process_world world none] at taken_back
    refine .inr ⟨fault, _, hookOrRestore_eq_error (hook_eq done) taken_back, ?_, rfl,
      rewired world, ?_⟩
    · change { state.patches with applied := false } = state.patches
      rw [← down.unapplied]
    · exact untouched_of_written memory here (written.trans more) fun site _ => same _ _

/-! ## Taking down -/

omit [AddressSpace W] in
/-- The order in which sites are written back does not matter for which they are. -/
theorem mem_originals_iff {state : SweepState M W} {store : Store} :
    store ∈ state.originals ↔ store ∈ state.session.redirect.site.original ::
      state.patches.patches.reverse.map Patch.original := by
  simp [SweepState.originals]

/-- What was put up can be taken down, and then every site holds its bytes again. -/
theorem takeDown_spec (memory : SteadyMemory possible) {start up state : SweepState M W}
    (here : possible start.session.process.world.world) (down : Down start) (isUp : Up start up)
    (rigged : Rigged (Untouched possible start.originals up.session.process.world.world) up state) :
    ∃ final, Plan.takeDown state = .ok () final ∧ AsBefore possible start final := by
  obtain ⟨patches, redirect, process⟩ := state
  obtain ⟨patches_eq, redirect_eq, wiring_eq, untouched⟩ := rigged
  -- Removing and restoring write all sites back, that of the redirect first.
  cases patches_eq.trans isUp.patches_eq
  cases redirect_eq.trans isUp.redirect_eq
  obtain ⟨restored, stored, same⟩ := writtenBack memory (fun _ => mem_originals_iff) here
    down.held_originals isUp.written isUp.writable untouched
  obtain ⟨world, wrote, rest⟩ := stores_cons_iff.mp stored
  have removed : Redirect.remove { start.session.redirect with installed := true } process = _ :=
    Redirect.remove_eq_ok rfl wrote
  have taken_back := PatchSet.restore_of_stores isUp.x86 rest
  have process_world : (setSlot start.session.redirect.kind none { process with world }).world =
    world := world_setSlot _ _ _
  rw [← process_world] at taken_back
  refine ⟨_, takeDown_eq_ok (unhook_eq_ok removed) taken_back, ?_, ?_, ?_, same⟩
  · change { start.patches with applied := false } = start.patches
    rw [← down.unapplied]
  · change { start.session.redirect with installed := false } = start.session.redirect
    rw [← down.removed]
  · have rewired : ({ process with world } : Process _ _).wiring = up.session.process.wiring :=
      wiring_eq
    exact (wiring_setSlot_congr rewired _ _).trans isUp.wiring_eq

/-! ## The whole sweep -/

variable [NativeCode W] [CodeSpace W]

/-- Up or down, the same recorder is behind the redirect. -/
theorem Up.records {plan : Plan M W} {start up : SweepState M W} (isUp : Up start up)
    (records : Records plan start.session) : Records plan up.session := by
  obtain ⟨rules, same_resolver, callback_eq⟩ := records
  have same := congrArg Wiring.callback isUp.wiring_eq
  refine ⟨rules, same_resolver, Eq.trans ?_ (same.trans callback_eq)⟩
  cases start.session.redirect.kind <;> rfl

variable [Introspection W] [ModuleStore M W]

/-- What a sweep puts up it takes down, whatever fails on the way. -/
theorem asBefore_run (memory : SteadyMemory possible) {plan : Plan M W} {state : SweepState M W}
    (here : possible state.session.process.world.world) (down : Down state)
    (records : Records plan state.session)
    (keeps : ∀ world, plan.Keeps (Untouched possible state.originals world)) :
    AsBefore possible state (finalState (plan.run state)) := by
  unfold Plan.run
  rcases onPatches_apply memory here down with
    ⟨patched, applied, isPatched⟩ | ⟨fault, after, failed, same⟩
  · rw [run_bind_of_ok applied]
    rcases hookOrRestore_cases memory here down isPatched with
      ⟨up, hooked, isUp⟩ | ⟨fault, after, refused, same⟩
    · rw [run_bind_of_ok hooked]
      have reached : possible up.session.process.world.world :=
        (workspace_memory.byteMemory memory.toByteMemory).possible_written here isUp.written
      -- From here on nothing ends the sweep before all is taken down: what it does is attempted.
      obtain ⟨swept, attempted⟩ := attempt_eq_ok (do plan.bringUp; plan.captureAll) up
      have kept := ((keeps_bringUp (keeps _) (isUp.records records)).bind fun _ =>
        keeps_captureAll (keeps _) (isUp.records records)) up ⟨rfl, rfl, rfl, .refl reached _⟩
      rw [run_bind_of_ok attempted]
      obtain ⟨final, taken_down, same⟩ := takeDown_spec memory here down isUp kept
      obtain ⟨takenDown, attempted⟩ := attempt_eq_ok (Plan.takeDown (M := M) (W := W)) _
      rw [run_bind_of_ok attempted, taken_down]
      have finishing : Keeps (AsBefore possible state)
          (settle swept >>= fun summary => settle takenDown >>= fun _ => plan.finish summary) :=
        (keeps_settle swept).bind fun summary => (keeps_settle takenDown).bind fun _ =>
          keeps_finish (keeps _) records summary
      exact finishing final same
    · rw [finalState_bind, refused]
      exact same
  · rw [finalState_bind, failed]
    exact same

/-- A sweep that starts with neither patches nor redirect in place ends so, whatever it comes to: no
slot is published, and every site, be it of a patch or of the redirect, holds the bytes that it held
before. -/
theorem run_takesDown (memory : SteadyMemory possible) {plan : Plan M W} {state : SweepState M W}
    (here : possible state.session.process.world.world) (down : Down state)
    (records : Records plan state.session)
    (keeps : ∀ world, plan.Keeps (Untouched possible state.originals world)) :
    let final := finalState (plan.run state)
    final.session.redirect.installed = false ∧
      slotOf final.session.redirect.kind final.session.process = none ∧
      final.patches.applied = false ∧
      (∀ site ∈ state.originals,
        AddressSpace.read site.address site.data.length final.session.process.world =
          AddressSpace.read site.address site.data.length state.session.process.world) ∧
      final.patches = state.patches ∧ final.session.redirect = state.session.redirect := by
  intro final
  have same : AsBefore possible state final := asBefore_run memory here down records keeps
  have still := down.of_asBefore same
  exact ⟨still.removed, still.withdrawn, still.unapplied, same.here.reads, same.patches_eq,
    same.redirect_eq⟩

end

/-! ## Rehearsals -/

open Rehearsal

/-- A world is untouched whatever else in it is another, if its memory is the same. -/
theorem untouched_of_memory {sites : List Store} {start world later : World}
    (same : later.memory = world.memory)
    (untouched : Untouched (fun world : World => world.memory.Fixed) sites start world) :
    Untouched (fun world : World => world.memory.Fixed) sites start later where
  here := same ▸ untouched.here
  reads := by
    intro site mem
    rw [rehearsal_memory.read_eq, same, ← rehearsal_memory.read_eq]
    exact untouched.reads site mem
  writes := by
    intro site mem
    rw [rehearsal_memory.canWrite_iff, same, ← rehearsal_memory.canWrite_iff]
    exact untouched.writes site mem

/-- Memory that patches and the compiler's table share. -/
def sharedSites : World :=
  .ofMemory ⟨⟨[⟨0x1000, [0x04, 0x10, 0, 0, 0, 0x70, 0, 0]⟩]⟩, [], []⟩

/-- Two patches that overlap, on top of the first entry of the table. -/
def overlappingPatches : PatchSet :=
  .ofPatches .x86
    [⟨.noInline, 0x1003, [0, 0], [1, 2]⟩, ⟨.suppressStaticInit, 0x1004, [0, 0x70], [3, 4]⟩]

def neighbourCollaborators : Collaborators Ledger World where
  host := neighbourPlan.context.host
  loader := neighbourPlan.loader
  parser := .standard
  detectors := [fun _ => some compilesNeighbour]
  entries := tableContext.entries
  owner := 1

/-- Nothing that compiles a neighbour touches the memory. -/
theorem neighbour_keeps {sites : List Store} {start : World} {plan : Plan Ledger World}
    (same_host : plan.context.host = neighbourPlan.context.host)
    (same_strategy : plan.strategy = compilesNeighbour)
    (same_loader : plan.loader = neighbourPlan.loader) :
    plan.Keeps (Untouched (fun world : World => world.memory.Fixed) sites start) := by
  -- a question is noted in the journal, which is no part of the memory
  have asked {α : Type} (question : String) (method : Handle) (silent : World → Bool)
      (answer : World → α) :
      Keeps (Untouched (fun world : World => world.memory.Fixed) sites start) fun world =>
        World.ask question method (silent world) (answer world) world := by
    intro world here
    refine untouched_of_memory ?_ here
    dsimp only [World.ask]
    cases silent world <;> rfl
  obtain ⟨⟨settings, environment, packed, host, routines⟩, strategy, loader, input⟩ := plan
  cases same_host
  cases same_strategy
  cases same_loader
  constructor
  case placing =>
    intro code world here
    refine untouched_of_memory ?_ here
    rfl
  case native =>
    constructor
    · intro world here function call
      refine untouched_of_memory ?_ here
      rfl
    · intro world here function this method index
      refine untouched_of_memory ?_ here
      rfl
  case answering =>
    exact ⟨fun method => asked _ _ _ _, fun method => asked _ _ _ _, fun method => asked _ _ _ _⟩
  case methodHandle => exact fun _ => trivial
  case invoke => exact fun _ => trivial
  case loadBytes => exact fun _ _ here => here
  case write => exact fun _ _ _ _ here => here
  case preInitialize => trivial
  case postInitialize => trivial
  case needsCapture => exact fun _ => trivial
  case forceCompile => exact fun _ _ _ => trivial
  case removeRuntimeSupport => exact fun _ => trivial
  case resolver => exact fun _ _ => trivial

/-- Two patches that overlap each other and the redirected entry are all taken back at the end of
the run. -/
theorem run_takesDown_overlapping :
    ∃ plan redirect fresh, prepare { hookKind := .table } "" tableContext.environment
        tableContext.table neighbourPlan.context.routines neighbourCollaborators
        (Process.idle .fresh ⟨none, sharedSites⟩) = .ok (plan, redirect) fresh ∧
      ∃ final, plan.run ⟨overlappingPatches, ⟨redirect, fresh⟩⟩ =
          .error (.memory 0 (.unmapped 64)) final ∧
        final.session.redirect.installed = false ∧
        slotOf .table final.session.process = none ∧
        final.patches.applied = false ∧
        AddressSpace.read 0x1003 2 final.session.process.world = .ok [0, 0] ∧
        AddressSpace.read 0x1004 2 final.session.process.world = .ok [0, 0x70] ∧
        AddressSpace.read 0x1004 4 final.session.process.world = .ok [0, 0x70, 0, 0] := by
  have prepared : prepare { hookKind := .table } "" tableContext.environment tableContext.table
      neighbourPlan.context.routines neighbourCollaborators
      (Process.idle .fresh ⟨none, sharedSites⟩) = .ok (_, _) _ := rfl
  have fixed : sharedSites.memory.Fixed := GuardedMemory.fixed_of_region (by decide) []
  have recorded :
      overlappingPatches.Recorded (Workspace.mk (none : Option Ledger) sharedSites) := by
    unfold PatchSet.Recorded overlappingPatches
    exact List.forall_mem_cons.mpr ⟨⟨rfl, rfl⟩, List.forall_mem_singleton.mpr ⟨rfl, rfl⟩⟩
  have down := (down_of_prepare rehearsal_growing rehearsal_places
    (fun here opened => by cases opened; exact ⟨here, .refl _⟩) fixed.toSound
    (fun kind => by cases kind <;> rfl) rfl recorded prepared).2
  obtain ⟨removed, withdrawn, unapplied, reads, -, -⟩ := run_takesDown rehearsal_steady fixed down
    (prepare_atRest prepared).2 fun _ => neighbour_keeps rfl rfl rfl
  refine ⟨_, _, _, prepared, _, rfl, removed, withdrawn, unapplied, ?_, ?_, ?_⟩
  · exact reads ⟨0x1003, [0, 0]⟩ (.tail _ (.head _))
  · exact reads ⟨0x1004, [0, 0x70]⟩ (.tail _ (.tail _ (.head _)))
  · exact reads ⟨0x1004, [0, 0x70, 0, 0]⟩ (.head _)

end CilCapture.Sweep
