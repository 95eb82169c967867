import CilCapture.Hook.Site
import CilCapture.Proofs.Bytes
import CilCapture.Proofs.Memory.Contents

/-!
# Finding a site

What finding a site leaves behind: nothing that could be read before has changed, the site holds the
bytes that were found there, and the bytes that replace them are as many (`found_of_findSite`).

A site is found in memory that may grow while it is looked for, as adapters and jumps are placed on
the way. So the statements are about two worlds, and `Extends` is what the second has of the first:
all that could be read. The bytes that were found are then still there.

Both searches are shown by following their stages, each of which is a lemma; for the faults they may
end in see `Attempts`.
-/

namespace CilCapture.Hook

open Engine Memory

variable {W : Type} [AddressSpace W] {possible : W → Prop}

namespace HookSite

/-- The bytes found at the site. -/
def original (site : HookSite) : Store := ⟨site.address, site.found⟩

/-- The bytes that lead to the entry point. -/
def redirecting (site : HookSite) : Store := ⟨site.address, site.redirected⟩

end HookSite

/-! ## Reading -/

/-- Loading reads and leaves the world alone. -/
theorem load_eq_ok {address : Address} {length : Nat} {world after : W} {bytes : Bytes}
    (loaded : load address length world = .ok bytes after) :
    world = after ∧ AddressSpace.read address length world = .ok bytes := by
  unfold load at loaded
  cases read : AddressSpace.read address length world with
  | ok found =>
    rw [read] at loaded
    cases loaded
    exact ⟨rfl, rfl⟩
  | error fault =>
    rw [read] at loaded
    cases loaded

/-- Loading a byte leaves the world alone. -/
theorem loadByte_eq_ok {address : Address} {world after : W} {byte : UInt8}
    (loaded : loadByte address world = .ok byte after) : world = after := by
  obtain ⟨bytes, middle, read, finished⟩ := run_bind_eq_ok.mp loaded
  cases finished
  exact (load_eq_ok read).1

/-- Loading a pointer leaves the world alone. -/
theorem loadPointer_eq_ok {address pointer : Address} {size : Nat} {world after : W}
    (loaded : loadPointer address size world = .ok pointer after) : world = after := by
  unfold loadPointer withPointer at loaded
  split at loaded
  next =>
    obtain ⟨bytes, middle, read, finished⟩ := run_bind_eq_ok.mp loaded
    cases finished
    exact (load_eq_ok read).1
  next => cases loaded

/-- A settled result succeeds with its value, in the state it found. -/
theorem settle_eq_ok {σ α : Type} {step : Except Fault α} {state after : σ} {value : α}
    (settled : settle step state = .ok value after) : state = after ∧ step = .ok value := by
  cases step with
  | ok result =>
    cases settled
    exact ⟨rfl, rfl⟩
  | error fault => cases settled

/-! ## Placing code -/

variable [CodeSpace W]

/-- Code is placed where nothing can be read, and changes nothing that can. -/
def PlacesApart (possible : W → Prop) : Prop :=
  ∀ {world placed : W} {code : Bytes} {address : Address}, possible world →
    CodeSpace.place code world = .ok address placed → possible placed ∧ Extends world placed

/-- Converting an address may place an adapter, which changes nothing that could be read. -/
theorem extends_of_convert (places : PlacesApart possible) {architecture : Architecture}
    {address converted : Address} {source called : Convention} {world after : W}
    (here : possible world)
    (done : convert architecture address source called world = .ok converted after) :
    possible after ∧ Extends world after := by
  unfold convert at done
  split at done
  next =>
    cases done
    exact ⟨here, .refl world⟩
  next =>
    split at done
    next => cases done
    next =>
      cases needed : adapter source called (UInt32.ofNat address) with
      | error fault =>
        rw [needed] at done
        cases done
      | ok code =>
        rw [needed] at done
        cases code with
        | none =>
          cases done
          exact ⟨here, .refl world⟩
        | some code => exact places here done

/-- Making an address callable changes nothing that could be read. -/
theorem extends_of_callable (places : PlacesApart possible) {architecture : Architecture}
    {width : Nat} {address converted : Address} {source : Convention} {world after : W}
    (here : possible world)
    (done : callable architecture width address source world = .ok converted after) :
    possible after ∧ Extends world after := by
  unfold callable at done
  split at done
  next => cases done
  next => exact extends_of_convert places here done

omit [CodeSpace W] in
/-- A write to new memory changes nothing that could be read before. -/
theorem extends_of_allocated (memory : GrowingMemory possible) {near base : Address} {size : Nat}
    {data : Bytes} {world grown after : W} (here : possible world)
    (allocated : AddressSpace.allocateNear near size world = .ok base grown)
    (fits : data.length = size) (wrote : AddressSpace.write base data grown = .ok () after) :
    possible after ∧ Extends world after := by
  obtain ⟨there, still, fresh⟩ := memory.allocate here allocated
  have written := memory.possible_write there base data
  rw [wrote] at written
  refine ⟨written, ⟨?_⟩⟩
  intro address length bytes read
  have outside : ∀ store ∈ [(⟨base, data⟩ : Store)], ∀ index < bytes.length,
      ¬ store.covers (address + index) := by
    intro store mem index bound
    cases List.mem_singleton.mp mem
    have := fresh read index (memory.length_read here read ▸ bound)
    rwa [← fits] at this
  rw [memory.read_write there wrote, still.keeps read]
  exact congrArg Except.ok (bytesAfter_of_not_covered outside)

omit [CodeSpace W] in
/-- A jump that is placed for a call changes nothing that could be read. -/
theorem extends_of_nearTarget (memory : GrowingMemory possible) {architecture : Architecture}
    {site target reached : Address} {world after : W} (here : possible world)
    (done : nearTarget architecture site target world = .ok reached after) :
    possible after ∧ Extends world after := by
  unfold nearTarget at done
  split at done
  next =>
    cases done
    exact ⟨here, .refl world⟩
  next =>
    obtain ⟨stub, grown, allocated, done⟩ := run_bind_eq_ok.mp done
    obtain ⟨_, final, wrote, finished⟩ := run_bind_eq_ok.mp done
    cases finished
    have fits : (absoluteJump target).length = absoluteJumpSize := by
      rw [absoluteJump, List.length_append, Bytes.length_ofNat]
      rfl
    exact extends_of_allocated memory here allocated fits wrote

/-! ## The site -/

/-- A site that was found in a world is there afterwards, with as many bytes to replace it. -/
structure FoundIn (site : HookSite) (before after : W) : Prop where
  grown : Extends before after
  held : site.original.Held before
  length_eq : site.redirected.length = site.found.length

/-- A call that was found is there, and is replaced by as many bytes. -/
theorem found_of_findCall (memory : GrowingMemory possible) (places : PlacesApart possible)
    {context : HookContext} {site : HookSite} {world after : W} (here : possible world)
    (done : findCall context world = .ok site after) :
    possible after ∧ FoundIn site world after := by
  obtain ⟨offset, _, settled, done⟩ := run_bind_eq_ok.mp done
  obtain ⟨rfl, -⟩ := settle_eq_ok settled
  obtain ⟨opcode, _, loaded, done⟩ := run_bind_eq_ok.mp done
  obtain rfl := loadByte_eq_ok loaded
  dsimp only at done
  split at done
  next => cases done
  next =>
    obtain ⟨found, _, taken, done⟩ := run_bind_eq_ok.mp done
    obtain ⟨rfl, read⟩ := load_eq_ok taken
    obtain ⟨routine, first, called, done⟩ := run_bind_eq_ok.mp done
    obtain ⟨entry, second, entered, done⟩ := run_bind_eq_ok.mp done
    obtain ⟨stub, third, reached, done⟩ := run_bind_eq_ok.mp done
    obtain ⟨redirected, last, settled, done⟩ := run_bind_eq_ok.mp done
    obtain ⟨rfl, -⟩ := settle_eq_ok settled
    cases done
    obtain ⟨there, extended⟩ := extends_of_callable places here called
    obtain ⟨there, extended'⟩ := extends_of_convert places there entered
    obtain ⟨there, extended''⟩ := extends_of_nearTarget memory there reached
    have length_found := memory.length_read here read
    refine ⟨there, ?_, ?_, ?_⟩
    · exact (extended.trans extended').trans extended''
    · change AddressSpace.read _ found.length _ = .ok found
      rwa [length_found]
    · exact (Bytes.length_ofInt 4 redirected).trans length_found.symm

/-- A table entry that was found is there, and is replaced by as many bytes. -/
theorem found_of_findTable (memory : GrowingMemory possible) (places : PlacesApart possible)
    {context : HookContext} {site : HookSite} {world after : W} (here : possible world)
    (done : findTable context world = .ok site after) :
    possible after ∧ FoundIn site world after := by
  unfold findTable at done
  dsimp only at done
  split at done
  next => cases done
  next =>
    obtain ⟨slot, _, loaded, done⟩ := run_bind_eq_ok.mp done
    obtain rfl := loadPointer_eq_ok loaded
    obtain ⟨found, _, taken, done⟩ := run_bind_eq_ok.mp done
    obtain ⟨rfl, read⟩ := load_eq_ok taken
    obtain ⟨routine, first, called, done⟩ := run_bind_eq_ok.mp done
    obtain ⟨redirected, second, entered, done⟩ := run_bind_eq_ok.mp done
    cases done
    obtain ⟨there, extended⟩ := extends_of_callable places here called
    obtain ⟨there, extended'⟩ := extends_of_convert places there entered
    have length_found := memory.length_read here read
    refine ⟨there, extended.trans extended', ?_, ?_⟩
    · change AddressSpace.read _ found.length _ = .ok found
      rwa [length_found]
    · exact (Bytes.length_ofNat _ redirected).trans length_found.symm

/-- Finding a site of either kind leaves all that could be read as it was. -/
theorem found_of_findSite (memory : GrowingMemory possible) (places : PlacesApart possible)
    {kind : HookKind} {context : HookContext} {site : HookSite} {world after : W}
    (here : possible world) (done : findSite kind context world = .ok site after) :
    possible after ∧ FoundIn site world after := by
  cases kind with
  | call => exact found_of_findCall memory places here done
  | table => exact found_of_findTable memory places here done

end CilCapture.Hook
