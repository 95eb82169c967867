import CilCapture.Engine.Patch
import CilCapture.Proofs.Memory.Buffers

/-!
# Patches as a unit

Applying a set that is not applied either writes every replacement or leaves the memory as it was;
restoring it afterwards gives every byte back, whatever sites overlap (`apply_asUnit`). Both rest on
one fact about the saved bytes: they were all read from the same memory, so that they can be put
back in any order.

That holds as long as saved bytes can be put back. Where such a write fails, the set counts as not
applied although a site still holds its replacement (`unapplied_stillPatched`); what remains true of
the flag is in `applied_sound`.

The states that calls lead to are described by an invariant for memories where saved bytes can be
put back (`AsUnit`) and by a weaker one for all memories (`Confined`). Each is kept by one call and
so by any calls (`asUnit_carryOut`, `confined_carryOut`).

The sites of a set may overlap. What is in place after applying is then the replacements laid over
each other in their order, and what is put back goes in the opposite order for no other reason than
that the code does so: any order would give the same bytes (`sameBytes_of_restored`).
-/

namespace CilCapture.Engine

open Memory

variable {W : Type} [AddressSpace W] {possible : W → Prop}

/-! ## One patch -/

namespace Patch

/-- The bytes saved from the site. -/
def original (patch : Patch) : Store := ⟨patch.address, patch.saved⟩

/-- The bytes that replace them. -/
def overwriting (patch : Patch) : Store := ⟨patch.address, patch.replacement⟩

/-- A patch whose site holds the bytes that were saved from it. -/
structure Sits (patch : Patch) (world : W) : Prop where
  length_eq : patch.saved.length = patch.replacement.length
  held : patch.original.Held world

/-- A patch that can be taken back once it could be made, whatever is written after that. -/
def Recoverable (possible : W → Prop) (patch : Patch) : Prop :=
  ∀ world after, possible world →
    AddressSpace.write patch.address patch.replacement world = .ok () after →
    patch.original.Assured after

/-- Saved and replacing bytes cover the same addresses. -/
theorem Sits.covers_iff {patch : Patch} {world : W} (sits : patch.Sits world) {address : Nat} :
    patch.overwriting.covers address ↔ patch.original.covers address := by
  unfold Store.covers original overwriting
  rw [sits.length_eq]

/-- A patch sits wherever the memory is the same. -/
theorem Sits.of_sameBytes {patch : Patch} {world later : W} (sits : patch.Sits world)
    (same : SameBytes world later) : patch.Sits later :=
  ⟨sits.length_eq, same.held sits.held⟩

/-- A patch that was captured sits: what was saved is what the memory held, and as long as the
replacement. -/
theorem sits_of_capture (memory : ByteMemory possible) {intent : PatchIntent} {address : Address}
    {replacement expected : Bytes} {world : W} {patch : Patch} (here : possible world)
    (captured : capture intent address replacement expected world = .ok patch) :
    patch.Sits world := by
  obtain ⟨saved, read, made⟩ := bind_eq_ok.mp captured
  have length_saved := memory.length_read here read
  split at made
  next =>
    rw [make, if_neg (not_not_intro length_saved)] at made
    cases made
    refine ⟨length_saved, ?_⟩
    change AddressSpace.read address saved.length world = .ok saved
    rwa [length_saved]
  next => cases made

/-- In a memory with fixed writable ranges every patch can be taken back. -/
theorem recoverable_of_steady (memory : SteadyMemory possible) {patch : Patch}
    (length_eq : patch.saved.length = patch.replacement.length) : patch.Recoverable possible := by
  intro world after here wrote
  have written : Written world after := .of_write wrote rfl
  apply memory.assured_of_canWrite (memory.possible_written here written)
  rw [memory.canWrite_written here written]
  change CanWrite world patch.address patch.saved.length
  rw [length_eq]
  exact memory.canWrite_of_write here wrote

end Patch

namespace PatchSet

/-! ## What the writes of a set come to -/

/-- Rolling back writes what was saved of each patch, whatever becomes of each write. -/
theorem rollBack_eq (patches : List Patch) (world : W) :
    rollBack patches world = writeEach (patches.map Patch.original) world := by
  induction patches generalizing world with
  | nil => rfl
  | cons patch patches ih =>
    rw [rollBack, List.map_cons, writeEach_cons]
    cases result : AddressSpace.write patch.address patch.saved world with
    | ok done after => exact (ih after).trans (congrArg _ (congrArg finalState result).symm)
    | error fault after => exact (ih after).trans (congrArg _ (congrArg finalState result).symm)

/-- The world after restoring is the one after writing what was saved; the first fault is only
noted. -/
theorem writeSaved_snd (first : Option Fault) (patches : List Patch) (world : W) :
    (writeSaved first patches world).2 = writeEach (patches.map Patch.original) world := by
  induction patches generalizing first world with
  | nil => rfl
  | cons patch patches ih =>
    rw [writeSaved, List.map_cons, writeEach_cons]
    cases result : AddressSpace.write patch.address patch.saved world with
    | ok done after => exact (ih _ after).trans (congrArg _ (congrArg finalState result).symm)
    | error fault after => exact (ih _ after).trans (congrArg _ (congrArg finalState result).symm)

/-- Where every write succeeds, restoring has nothing to note. -/
theorem writeSaved_of_stores {patches : List Patch} {world after : W} (first : Option Fault)
    (stored : Stores (patches.map Patch.original) world after) :
    writeSaved first patches world = (first, after) := by
  induction patches generalizing world with
  | nil =>
    cases stored
    rfl
  | cons patch patches ih =>
    obtain ⟨middle, wrote, rest⟩ := stores_cons_iff.mp stored
    change AddressSpace.write patch.address patch.saved world = _ at wrote
    rw [writeSaved, wrote]
    exact ih rest

/-- The replacements are all written, or they are up to one whose write fails; those before it are
then taken back. -/
theorem writeReplacements_cases (written patches : List Patch) (world : W) :
    (∃ after, Stores (patches.map Patch.overwriting) world after ∧
        writeReplacements written patches world = .ok () after) ∨
      ∃ done rest middle fault failed, patches = done ++ rest ∧
        Stores (done.map Patch.overwriting) world middle ∧
        (∃ address data, AddressSpace.write address data middle = .error fault failed) ∧
        writeReplacements written patches world =
          .error fault (writeEach ((done.reverse ++ written).map Patch.original) failed) := by
  induction patches generalizing written world with
  | nil => exact .inl ⟨world, .nil world, rfl⟩
  | cons patch patches ih =>
    rw [writeReplacements]
    cases wrote : AddressSpace.write patch.address patch.replacement world with
    | error fault failed =>
      refine .inr ⟨[], patch :: patches, world, fault, failed, rfl, .nil world, ⟨_, _, wrote⟩, ?_⟩
      exact congrArg _ (rollBack_eq written failed)
    | ok done middle =>
      rcases ih (patch :: written) middle with
        ⟨after, stored, finished⟩ |
          ⟨done, rest, last, fault, failed, rfl, stored, refused, finished⟩
      · exact .inl ⟨after, .cons wrote stored, finished⟩
      · refine .inr ⟨patch :: done, rest, last, fault, failed, rfl, .cons wrote stored, refused, ?_⟩
        rw [List.reverse_cons, List.append_assoc, List.singleton_append]
        exact finished

/-- Patches that were made can be taken back. -/
theorem assured_of_stores (memory : ByteMemory possible) {patches : List Patch}
    (recoverable : ∀ patch ∈ patches, patch.Recoverable possible) {world after : W}
    (here : possible world) (stored : Stores (patches.map Patch.overwriting) world after) :
    ∀ patch ∈ patches, patch.original.Assured after := by
  induction patches generalizing world with
  | nil => exact fun _ mem => absurd mem List.not_mem_nil
  | cons patch patches ih =>
    obtain ⟨middle, wrote, rest⟩ := stores_cons_iff.mp stored
    have there := memory.possible_written here (.of_write wrote rfl)
    intro other mem
    rcases List.mem_cons.mp mem with rfl | mem
    · exact (recoverable other List.mem_cons_self _ _ here wrote).later rest.written
    · exact ih (fun later mem => recoverable later (List.mem_cons_of_mem _ mem)) there rest
        other mem

/-! ## Applying and restoring -/

/-- A set of which every site holds the bytes that were saved from it. -/
def Recorded (set : PatchSet) (world : W) : Prop := ∀ patch ∈ set.patches, patch.Sits world

/-- What the set writes when it is applied. -/
def replacements (set : PatchSet) : List Store := set.patches.map Patch.overwriting

/-- What the patches done have written is taken back by the saved bytes of any order that has all of
them. -/
theorem within_originals {patches done order : List Patch} {world : W}
    (recorded : ∀ patch ∈ patches, patch.Sits world) (subset : done ⊆ patches)
    (same : done ⊆ order) :
    Within (done.map Patch.overwriting) (order.map Patch.original) := by
  intro store mem address covers
  obtain ⟨patch, patch_mem, rfl⟩ := List.mem_map.mp mem
  exact ⟨patch.original, List.mem_map_of_mem (same patch_mem),
    (recorded patch (subset patch_mem)).covers_iff.mp covers⟩

/-- Taking back patches of a set writes inside what the set replaces. -/
theorem within_replacements {patches order : List Patch} {world : W}
    (recorded : ∀ patch ∈ patches, patch.Sits world) (subset : order ⊆ patches) :
    Within (order.map Patch.original) (patches.map Patch.overwriting) := by
  intro store mem address covers
  obtain ⟨patch, patch_mem, rfl⟩ := List.mem_map.mp mem
  exact ⟨patch.overwriting, List.mem_map_of_mem (subset patch_mem),
    (recorded patch (subset patch_mem)).covers_iff.mpr covers⟩

/-- Replacements are taken back by writing what was saved, in any order, if that succeeds. -/
theorem takenBack (memory : ByteMemory possible) {patches done order : List Patch}
    (subset : done ⊆ patches) (same : ∀ patch, patch ∈ order ↔ patch ∈ done) {world changed : W}
    (here : possible world) (written : Written world changed)
    (recorded : ∀ patch ∈ patches, patch.Sits world)
    (overlaid : Overlaid (done.map Patch.overwriting) world changed)
    (assured : ∀ patch ∈ done, patch.original.Assured changed) :
    ∃ restored, Stores (order.map Patch.original) changed restored ∧ SameBytes world restored := by
  have originals : ∀ store ∈ order.map Patch.original,
      store.Held world ∧ store.Assured changed := by
    intro store mem
    obtain ⟨patch, patch_mem, rfl⟩ := List.mem_map.mp mem
    have patch_done := (same patch).mp patch_mem
    exact ⟨(recorded patch (subset patch_done)).held, assured patch patch_done⟩
  have stored := stores_of_assured fun store mem => (originals store mem).2
  have back := memory.overlaid_of_stores (memory.possible_written here written) stored
  have within := within_originals recorded subset fun patch mem => (same patch).mpr mem
  exact ⟨_, stored, sameBytes_of_restored memory here (fun store mem => (originals store mem).1)
    within overlaid back⟩

/-- What applying a set comes to. -/
theorem apply_cases (set : PatchSet) (world : W) :
    (∃ fault, set.apply world = (.error fault, set, world)) ∨
      (set.applied = true ∧ set.apply world = (.ok (), set, world)) ∨
      (set.architecture = .x86 ∧ ∃ patched, Stores set.replacements world patched ∧
        set.apply world = (.ok (), { set with applied := true }, patched)) ∨
      set.applied = false ∧ ∃ done rest middle fault failed, set.patches = done ++ rest ∧
        Stores (done.map Patch.overwriting) world middle ∧
        (∃ address data, AddressSpace.write address data middle = .error fault failed) ∧
        set.apply world =
          (.error fault, set, writeEach (done.reverse.map Patch.original) failed) := by
  unfold apply
  by_cases x86 : set.architecture = .x86
  · rw [if_neg (not_not_intro x86)]
    cases applied : set.applied with
    | true => exact .inr (.inl ⟨rfl, rfl⟩)
    | false =>
      rw [if_neg Bool.false_ne_true]
      rcases writeReplacements_cases [] set.patches world with
        ⟨patched, stored, finished⟩ |
          ⟨done, rest, middle, fault, failed, same, stored, refused, finished⟩
      · rw [finished]
        exact .inr (.inr (.inl ⟨x86, patched, stored, rfl⟩))
      · rw [finished, List.append_nil]
        exact .inr (.inr (.inr
          ⟨rfl, done, rest, middle, fault, failed, same, stored, refused, rfl⟩))
  · rw [if_pos x86]
    exact .inl ⟨_, rfl⟩

/-- Applying a set that is not applied writes every replacement, or leaves the memory as it was. -/
theorem apply_spec (memory : ByteMemory possible) {set : PatchSet} {world : W}
    (here : possible world) (unapplied : set.applied = false) (recorded : set.Recorded world)
    (recoverable : ∀ patch ∈ set.patches, patch.Recoverable possible) :
    (∃ patched, set.apply world = (.ok (), { set with applied := true }, patched) ∧
        set.architecture = .x86 ∧ Stores set.replacements world patched ∧
        ∀ patch ∈ set.patches, patch.original.Assured patched) ∨
      ∃ fault kept, set.apply world = (.error fault, set, kept) ∧ Written world kept ∧
        SameBytes world kept := by
  rcases apply_cases set world with ⟨fault, finished⟩ | ⟨applied, -⟩ |
    ⟨x86, patched, stored, finished⟩ |
    ⟨-, done, rest, middle, fault, failed, same, stored, ⟨address, data, refused⟩, finished⟩
  · exact .inr ⟨fault, world, finished, .refl world, .refl world⟩
  · cases unapplied.symm.trans applied
  · exact .inl ⟨patched, finished, x86, stored, assured_of_stores memory recoverable here stored⟩
  · have subset : done ⊆ set.patches := same ▸ List.subset_append_left done rest
    have there := memory.possible_written here stored.written
    have failing : Written middle failed := .of_write refused rfl
    have assured := assured_of_stores memory (fun patch mem => recoverable patch (subset mem)) here
      stored
    obtain ⟨restored, stored_back, same_bytes⟩ := takenBack memory subset
      (fun _ => List.mem_reverse) here (stored.written.trans failing) recorded
      ((memory.overlaid_of_stores here stored).sameBytes (memory.sameBytes_of_failed there refused))
      fun patch mem => (assured patch mem).later failing
    rw [stored_back.writeEach_eq] at finished
    exact .inr ⟨fault, restored, finished,
      (stored.written.trans failing).trans stored_back.written, same_bytes⟩

/-- Restoring an applied set writes what was saved, the last patch first. -/
theorem restore_of_stores {set : PatchSet} {world restored : W} (x86 : set.architecture = .x86)
    (stored : Stores (set.patches.reverse.map Patch.original) world restored) :
    { set with applied := true }.restore world =
      (.ok (), { set with applied := false }, restored) := by
  unfold restore
  rw [if_neg (not_not_intro x86), Bool.not_true, if_neg Bool.false_ne_true,
    writeSaved_of_stores none stored]

/-- Restoring an applied set gives every byte back, if what was saved can be written. -/
theorem restore_spec (memory : ByteMemory possible) {set : PatchSet} {start world : W}
    (here : possible start) (written : Written start world) (x86 : set.architecture = .x86)
    (recorded : set.Recorded start) (overlaid : Overlaid set.replacements start world)
    (assured : ∀ patch ∈ set.patches, patch.original.Assured world) :
    ∃ restored,
      { set with applied := true }.restore world =
        (.ok (), { set with applied := false }, restored) ∧
      Written world restored ∧ SameBytes start restored := by
  obtain ⟨restored, stored, same_bytes⟩ := takenBack memory (List.Subset.refl _)
    (fun _ => List.mem_reverse) here written recorded overlaid assured
  exact ⟨restored, restore_of_stores x86 stored, stored.written, same_bytes⟩

/-! ## Sequences of calls -/

/-- What is asked of a set over and over. -/
inductive Call where
  | apply
  | restore
  deriving DecidableEq, Repr

/-- The set and the world after a call, whatever it comes to. -/
def carryOutCall (state : PatchSet × W) : Call → PatchSet × W
  | .apply => (state.1.apply state.2).2
  | .restore => (state.1.restore state.2).2

/-- The set and the world after calls in order. -/
def carryOut (calls : List Call) (state : PatchSet × W) : PatchSet × W :=
  calls.foldl carryOutCall state

/-- What holds after any calls on a set whose patches can be taken back: the replacements are all in
place, or the memory is as it was. -/
structure AsUnit (set : PatchSet) (start : W) (state : PatchSet × W) : Prop where
  same_set : { state.1 with applied := false } = set
  written : Written start state.2
  applied : state.1.applied = true → set.architecture = .x86 ∧
    Overlaid set.replacements start state.2 ∧
    ∀ patch ∈ set.patches, patch.original.Assured state.2
  unapplied : state.1.applied = false → SameBytes start state.2

/-- With its flag down a set is the one it began as. -/
theorem AsUnit.flag_down {set : PatchSet} {start : W} {state : PatchSet × W}
    (asUnit : AsUnit set start state) : { set with applied := false } = set := by
  rw [← asUnit.same_set]

/-- A set that does not count as applied is the one it began as. -/
theorem AsUnit.eq_of_unapplied {set : PatchSet} {start : W} {state : PatchSet × W}
    (asUnit : AsUnit set start state) (unapplied : state.1.applied = false) : state.1 = set := by
  rw [← asUnit.same_set, ← unapplied]

/-- A set that counts as applied differs in its flag only. -/
theorem AsUnit.eq_of_applied {set : PatchSet} {start : W} {state : PatchSet × W}
    (asUnit : AsUnit set start state) (applied : state.1.applied = true) :
    state.1 = { set with applied := true } := by
  rw [← asUnit.same_set, ← applied]

/-- Applying twice is applying once. -/
theorem apply_of_applied {set : PatchSet} (applied : set.applied = true) (world : W) :
    (set.apply world).2 = (set, world) := by
  unfold apply
  rw [applied]
  split <;> rfl

/-- There is nothing to restore of a set that is not applied. -/
theorem restore_of_unapplied {set : PatchSet} (unapplied : set.applied = false) (world : W) :
    (set.restore world).2 = (set, world) := by
  unfold restore
  rw [unapplied]
  split <;> rfl

/-- A call keeps the set a unit. -/
theorem asUnit_carryOutCall (memory : ByteMemory possible) {set : PatchSet} {start : W}
    (here : possible start) (recorded : set.Recorded start)
    (recoverable : ∀ patch ∈ set.patches, patch.Recoverable possible) {state : PatchSet × W}
    (asUnit : AsUnit set start state) (call : Call) :
    AsUnit set start (carryOutCall state call) := by
  -- of the two calls one does something: `apply` on a set not applied, `restore` on an applied one
  cases flag : state.1.applied with
  | false =>
    have same_bytes := asUnit.unapplied flag
    cases call with
    | restore =>
      rw [carryOutCall, restore_of_unapplied flag]
      exact asUnit
    | apply =>
      have there := memory.possible_written here asUnit.written
      have same_set := asUnit.eq_of_unapplied flag
      -- the set was recorded at the start, and the memory again shows the bytes of then
      have still : state.1.Recorded state.2 := by
        intro patch mem
        rw [same_set] at mem
        exact (recorded patch mem).of_sameBytes same_bytes
      rw [carryOutCall]
      rcases apply_spec memory there flag still (same_set ▸ recoverable) with
        ⟨patched, done, x86, stored, assured⟩ | ⟨fault, kept, done, written, same⟩
      · rw [done]
        rw [same_set] at x86 stored assured ⊢
        have overlaid := memory.overlaid_of_stores there stored
        exact ⟨same_set ▸ asUnit.same_set, asUnit.written.trans stored.written,
          fun _ => ⟨x86, same_bytes.overlaid overlaid, assured⟩, nofun⟩
      · rw [done]
        exact ⟨asUnit.same_set, asUnit.written.trans written,
          fun applied => absurd (flag.symm.trans applied) Bool.false_ne_true,
          fun _ => same_bytes.trans same⟩
  | true =>
    cases call with
    | apply =>
      rw [carryOutCall, apply_of_applied flag]
      exact asUnit
    | restore =>
      obtain ⟨x86, overlaid, assured⟩ := asUnit.applied flag
      obtain ⟨restored, done, written, same_bytes⟩ :=
        restore_spec memory here asUnit.written x86 recorded overlaid assured
      rw [carryOutCall, asUnit.eq_of_applied flag, done]
      exact ⟨asUnit.flag_down, asUnit.written.trans written, nofun, fun _ => same_bytes⟩

/-- A set stays a unit through any calls: the induction is on the calls, each of which
`asUnit_carryOutCall` takes one further. -/
theorem asUnit_carryOut (memory : ByteMemory possible) {set : PatchSet} {start : W}
    (here : possible start) (recorded : set.Recorded start)
    (recoverable : ∀ patch ∈ set.patches, patch.Recoverable possible) (calls : List Call)
    {state : PatchSet × W} (asUnit : AsUnit set start state) :
    AsUnit set start (carryOut calls state) := by
  induction calls generalizing state with
  | nil => exact asUnit
  | cons call calls ih =>
    exact ih (asUnit_carryOutCall memory here recorded recoverable asUnit call)

/-- Restoring ends with every byte as it was, whatever was asked of the set before. -/
theorem AsUnit.restore (memory : ByteMemory possible) {set : PatchSet} {start : W}
    (here : possible start) (recorded : set.Recorded start) (x86 : set.architecture = .x86)
    {state : PatchSet × W} (asUnit : AsUnit set start state) :
    ∃ restored, state.1.restore state.2 = (.ok (), set, restored) ∧ SameBytes start restored := by
  cases flag : state.1.applied with
  | false =>
    have same_set := asUnit.eq_of_unapplied flag
    refine ⟨state.2, ?_, asUnit.unapplied flag⟩
    rw [PatchSet.restore, same_set, if_neg (not_not_intro x86), ← same_set, flag]
    rfl
  | true =>
    obtain ⟨-, overlaid, assured⟩ := asUnit.applied flag
    obtain ⟨restored, done, -, same_bytes⟩ :=
      restore_spec memory here asUnit.written x86 recorded overlaid assured
    rw [← asUnit.eq_of_applied flag, asUnit.flag_down] at done
    exact ⟨restored, done, same_bytes⟩

/-- Giving the set up ends with every byte as it was, and nothing to notice. -/
theorem AsUnit.drop (memory : ByteMemory possible) {set : PatchSet} {start : W}
    (here : possible start) (recorded : set.Recorded start) (x86 : set.architecture = .x86)
    {state : PatchSet × W} (asUnit : AsUnit set start state) :
    ∃ left, state.1.drop state.2 = (left, []) ∧ SameBytes start left := by
  unfold PatchSet.drop
  cases flag : state.1.applied with
  | false => exact ⟨state.2, rfl, asUnit.unapplied flag⟩
  | true =>
    obtain ⟨restored, done, same_bytes⟩ := asUnit.restore memory here recorded x86
    rw [done]
    exact ⟨restored, rfl, same_bytes⟩

/-! ## Writes that fail at any time -/

/-- What holds after any calls, whatever writes fail: nothing but the sites has changed, and the
replacements are all in place if the set counts as applied. -/
structure Confined (set : PatchSet) (start : W) (state : PatchSet × W) : Prop where
  same_set : { state.1 with applied := false } = set
  written : Written start state.2
  confined : ∃ stores, Within stores set.replacements ∧ Overlaid stores start state.2
  applied : state.1.applied = true → Overlaid set.replacements start state.2

/-- Restoring does nothing, or it writes back what was saved, the last patch first, and takes the
flag down, whatever the writes come to. -/
theorem restore_cases (set : PatchSet) (world : W) :
    (set.restore world).2 = (set, world) ∨
      (set.restore world).2 =
        ({ set with applied := false },
          writeEach (set.patches.reverse.map Patch.original) world) := by
  unfold restore
  split
  · exact .inl rfl
  · split
    · exact .inl rfl
    · exact .inr (Prod.ext rfl (writeSaved_snd none set.patches.reverse world))

/-- Whatever writes fail in it, a call changes nothing but the sites. -/
theorem confined_carryOutCall (memory : ByteMemory possible) {set : PatchSet} {start : W}
    (here : possible start) (recorded : set.Recorded start) {state : PatchSet × W}
    (confined : Confined set start state) (call : Call) :
    Confined set start (carryOutCall state call) := by
  obtain ⟨same_set, written, ⟨stores, within, overlaid⟩, whole⟩ := confined
  have there := memory.possible_written here written
  have same_patches : state.1.patches = set.patches := by rw [← same_set]
  have same_replacements : state.1.replacements = set.replacements := by
    rw [replacements, same_patches, replacements]
  cases call with
  | apply =>
    rw [carryOutCall]
    rcases apply_cases state.1 state.2 with ⟨fault, finished⟩ | ⟨-, finished⟩ |
      ⟨-, patched, stored, finished⟩ |
      ⟨unapplied, done, rest, middle, fault, failed, same, stored, ⟨address, data, refused⟩,
        finished⟩
    · rw [finished]
      exact ⟨same_set, written, ⟨stores, within, overlaid⟩, whole⟩
    · rw [finished]
      exact ⟨same_set, written, ⟨stores, within, overlaid⟩, whole⟩
    · rw [finished]
      rw [same_replacements] at stored
      have placed := overlaid.collapse (memory.overlaid_of_stores there stored) within
      refine ⟨same_set, written.trans stored.written, ⟨set.replacements, ?_, placed⟩,
        fun _ => placed⟩
      exact fun store mem address covers => ⟨store, mem, covers⟩
    · rw [finished]
      rw [same_patches] at same
      -- the writes before the refusal are of the set, and so are those of the way back
      have subset : done ⊆ set.patches := same ▸ List.subset_append_left done rest
      have failing : Written middle failed := .of_write refused rfl
      have there' := memory.possible_written there stored.written
      have reached := memory.possible_written there' failing
      obtain ⟨kept, sublist, back⟩ :=
        memory.overlaid_writeEach reached (done.reverse.map Patch.original)
      have made := (memory.overlaid_of_stores there stored).sameBytes
        (memory.sameBytes_of_failed there' refused)
      refine ⟨same_set, ((written.trans stored.written).trans failing).trans ⟨_, rfl⟩,
        ⟨_, ?_, (overlaid.append made).append back⟩, ?_⟩
      · refine (within.append ?_).append (Within.mono ?_ sublist.subset)
        · exact fun store mem address covers =>
            ⟨store, List.map_subset _ subset mem, covers⟩
        · exact within_replacements recorded fun patch mem => subset (List.mem_reverse.mp mem)
      · exact fun applied => absurd (unapplied.symm.trans applied) Bool.false_ne_true
  -- a restore tries every original, whether or not the writes before it succeeded
  | restore =>
    rw [carryOutCall]
    rcases restore_cases state.1 state.2 with finished | finished
    · rw [finished]
      exact ⟨same_set, written, ⟨stores, within, overlaid⟩, whole⟩
    · rw [finished]
      obtain ⟨kept, sublist, back⟩ :=
        memory.overlaid_writeEach there (state.1.patches.reverse.map Patch.original)
      refine ⟨same_set, written.trans ⟨_, rfl⟩, ⟨_, within.append (Within.mono ?_ sublist.subset),
        overlaid.append back⟩, nofun⟩
      exact within_replacements recorded fun patch mem => same_patches ▸ List.mem_reverse.mp mem

/-- Whatever writes fail in them, calls change nothing but the sites. -/
theorem confined_carryOut (memory : ByteMemory possible) {set : PatchSet} {start : W}
    (here : possible start) (recorded : set.Recorded start) (calls : List Call)
    {state : PatchSet × W} (confined : Confined set start state) :
    Confined set start (carryOut calls state) := by
  induction calls generalizing state with
  | nil => exact confined
  | cons call calls ih => exact ih (confined_carryOutCall memory here recorded confined call)

/-! ## The sets of an engine -/

/-- A patch made for a site sits on it. -/
theorem sits_of_sitePatch (memory : ByteMemory possible) {environment : Environment}
    {table : OffsetTable} {intent : PatchIntent} {site : Site} {replacement expected : Bytes}
    {world : W} {patch : Patch} (here : possible world)
    (made : sitePatch environment table intent site replacement expected world = .ok patch) :
    patch.Sits world := by
  obtain ⟨offset, -, made⟩ := bind_eq_ok.mp made
  obtain ⟨address, -, captured⟩ := bind_eq_ok.mp made
  exact Patch.sits_of_capture memory here captured

/-- A set made for an engine is not applied, and has saved what its sites hold. -/
theorem recorded_of_ofEngine (memory : ByteMemory possible) {environment : Environment}
    {table : OffsetTable} {world : W} {set : PatchSet} (here : possible world)
    (made : ofEngine environment table world = .ok set) :
    set.applied = false ∧ set.Recorded world := by
  unfold ofEngine at made
  by_cases x86 : environment.architecture = .x86
  · dsimp only at made
    rw [if_neg (not_not_intro x86)] at made
    split at made
    next =>
      obtain ⟨inlining, first, made⟩ := bind_eq_ok.mp made
      obtain ⟨initializers, second, made⟩ := bind_eq_ok.mp made
      obtain ⟨generics, third, made⟩ := bind_eq_ok.mp made
      cases made
      refine ⟨rfl, List.forall_mem_cons.mpr ⟨sits_of_sitePatch memory here first,
        List.forall_mem_cons.mpr ⟨sits_of_sitePatch memory here second, ?_⟩⟩⟩
      exact List.forall_mem_singleton.mpr (sits_of_sitePatch memory here third)
    next =>
      obtain ⟨inlining, first, made⟩ := bind_eq_ok.mp made
      obtain ⟨initializers, second, made⟩ := bind_eq_ok.mp made
      cases made
      refine ⟨rfl, List.forall_mem_cons.mpr ⟨sits_of_sitePatch memory here first, ?_⟩⟩
      exact List.forall_mem_singleton.mpr (sits_of_sitePatch memory here second)
  · dsimp only at made
    rw [if_pos x86] at made
    cases made

/-! ## The set as a unit -/

/-- In a memory with fixed writable ranges applying a set whose sites hold what was saved, as those
of an engine do, is all or nothing, and whatever is asked of the applied set afterwards, restoring
it or giving it up ends with every byte as it was. -/
theorem apply_asUnit (memory : SteadyMemory possible) {world : W} (here : possible world) :
    (∀ {environment : Environment} {table : OffsetTable} {set : PatchSet},
        ofEngine environment table world = .ok set →
        set.applied = false ∧ set.Recorded world) ∧
      ∀ set : PatchSet, set.applied = false → set.Recorded world →
        (∃ patched, set.apply world = (.ok (), { set with applied := true }, patched) ∧
            Overlaid set.replacements world patched ∧
            ∀ calls : List Call,
              let later := carryOut calls ({ set with applied := true }, patched)
              (∃ restored, later.1.restore later.2 = (.ok (), set, restored) ∧
                  SameBytes world restored) ∧
                ∃ left, later.1.drop later.2 = (left, []) ∧ SameBytes world left) ∨
          ∃ fault kept, set.apply world = (.error fault, set, kept) ∧ SameBytes world kept := by
  refine ⟨recorded_of_ofEngine memory.toByteMemory here, ?_⟩
  intro set unapplied recorded
  have recoverable : ∀ patch ∈ set.patches, patch.Recoverable possible :=
    fun patch mem => Patch.recoverable_of_steady memory (recorded patch mem).length_eq
  rcases apply_spec memory.toByteMemory here unapplied recorded recoverable with
    ⟨patched, done, x86, stored, assured⟩ | ⟨fault, kept, done, -, same⟩
  · have overlaid := memory.overlaid_of_stores here stored
    refine .inl ⟨patched, done, overlaid, ?_⟩
    intro calls
    have start : AsUnit set world ({ set with applied := true }, patched) :=
      ⟨unapplied ▸ rfl, stored.written, fun _ => ⟨x86, overlaid, assured⟩, nofun⟩
    have later := asUnit_carryOut memory.toByteMemory here recorded recoverable calls start
    exact ⟨later.restore memory.toByteMemory here recorded x86,
      later.drop memory.toByteMemory here recorded x86⟩
  · exact .inr ⟨fault, kept, done, same⟩

/-- Two patches of one byte string that have its middle in common. -/
def overlappingSet : PatchSet :=
  .ofPatches .x86
    [{ intent := .noInline, address := 0x1000, saved := [1, 2, 3], replacement := [9, 8, 7] },
      { intent := .allowGenericShells, address := 0x1001, saved := [2, 3, 4],
        replacement := [6, 5, 4] }]

def overlappingSites : GuardedMemory := ⟨⟨[⟨0x1000, [1, 2, 3, 4]⟩]⟩, [], []⟩

/-- Two patches that have bytes in common are applied, and after any calls and a restore the four
bytes are the first ones again. -/
theorem apply_asUnit_overlapping :
    ∃ patched, overlappingSet.apply overlappingSites =
        (.ok (), { overlappingSet with applied := true }, patched) ∧
      AddressSpace.read 0x1000 4 patched = .ok [9, 6, 5, 4] ∧
      ∀ calls : List Call,
        let later := carryOut calls ({ overlappingSet with applied := true }, patched)
        ∃ restored, later.1.restore later.2 = (.ok (), overlappingSet, restored) ∧
          SameBytes overlappingSites restored := by
  have fixed : overlappingSites.Fixed := GuardedMemory.fixed_of_region (by decide) []
  have recorded : overlappingSet.Recorded overlappingSites := by
    refine List.forall_mem_cons.mpr ⟨⟨rfl, rfl⟩, List.forall_mem_singleton.mpr ⟨rfl, rfl⟩⟩
  rcases (apply_asUnit guarded_steady fixed).2 overlappingSet rfl recorded with
    ⟨patched, done, overlaid, undone⟩ | ⟨fault, kept, failed, -⟩
  · exact ⟨patched, done, overlaid 0x1000 4, fun calls => (undone calls).1⟩
  · cases failed

/-- Whatever writes fail, a set that counts as applied has all its replacements in place. One that
does not is sure to have none in place only if what was saved can always be put back. -/
theorem applied_sound (memory : ByteMemory possible) {set : PatchSet} {world : W}
    (here : possible world) (unapplied : set.applied = false) (recorded : set.Recorded world)
    (calls : List Call) :
    ((carryOut calls (set, world)).1.applied = true →
        Overlaid set.replacements world (carryOut calls (set, world)).2) ∧
      ((∀ patch ∈ set.patches, patch.Recoverable possible) →
        (carryOut calls (set, world)).1.applied = false →
        SameBytes world (carryOut calls (set, world)).2) := by
  have raised : ∀ {claim : Prop}, (set, world).1.applied = true → claim :=
    fun applied => absurd (unapplied.symm.trans applied) Bool.false_ne_true
  constructor
  · have start : Confined set world (set, world) :=
      ⟨unapplied ▸ rfl, .refl world, ⟨[], nofun, overlaid_nil world⟩, raised⟩
    exact (confined_carryOut memory here recorded calls start).applied
  · intro recoverable
    have start : AsUnit set world (set, world) :=
      ⟨unapplied ▸ rfl, .refl world, raised, fun _ => .refl world⟩
    exact (asUnit_carryOut memory here recorded recoverable calls start).unapplied

/-- Two patches side by side. -/
def adjacentSet : PatchSet :=
  .ofPatches .x86
    [{ intent := .noInline, address := 0x1000, saved := [1], replacement := [9] },
      { intent := .allowGenericShells, address := 0x1001, saved := [2], replacement := [8] }]

/-- Their sites; the first one can be written once, and `readOnly` not at all. -/
def sealedSites (readOnly : List AddressRange) : GuardedMemory :=
  ⟨⟨[⟨0x1000, [1, 2]⟩]⟩, readOnly, [⟨0x1000, 1⟩]⟩

/-- The two patches sit, whichever sites can be written. -/
theorem sealedSites_recorded (readOnly : List AddressRange) :
    (sealedSites readOnly).Sound ∧ adjacentSet.Recorded (sealedSites readOnly) := by
  constructor
  · exact GuardedMemory.sound_of_region (by decide) (List.forall_mem_singleton.mpr (by decide))
  · exact List.forall_mem_cons.mpr ⟨⟨rfl, rfl⟩, List.forall_mem_singleton.mpr ⟨rfl, rfl⟩⟩

/-- Here the second call finds the set applied and does nothing, and the flag is right about both
bytes. -/
theorem applied_sound_sealed :
    AddressSpace.read 0x1000 2 (carryOut [.apply, .apply] (adjacentSet, sealedSites [])).2 =
      .ok [9, 8] := by
  obtain ⟨sound, recorded⟩ := sealedSites_recorded []
  exact (applied_sound guarded_bytes sound rfl recorded [.apply, .apply]).1 rfl 0x1000 2

/-- A set counts as not applied while a site holds its replacement: after a restoration that failed,
and after an application that failed and could not be taken back. -/
theorem unapplied_stillPatched :
    (adjacentSet.Recorded (sealedSites []) ∧
        (carryOut [.apply, .restore] (adjacentSet, sealedSites [])).1.applied = false ∧
        AddressSpace.read 0x1000 2
          (carryOut [.apply, .restore] (adjacentSet, sealedSites [])).2 = .ok [9, 2]) ∧
      (adjacentSet.Recorded (sealedSites [⟨0x1001, 1⟩]) ∧
        (carryOut [.apply] (adjacentSet, sealedSites [⟨0x1001, 1⟩])).1.applied = false ∧
        AddressSpace.read 0x1000 2
          (carryOut [.apply] (adjacentSet, sealedSites [⟨0x1001, 1⟩])).2 = .ok [9, 2]) :=
  ⟨⟨(sealedSites_recorded _).2, rfl, rfl⟩, ⟨(sealedSites_recorded _).2, rfl, rfl⟩⟩

end PatchSet

end CilCapture.Engine
