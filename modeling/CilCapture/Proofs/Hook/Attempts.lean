import CilCapture.Proofs.Hook.Site
import CilCapture.Proofs.Memory.Buffers

/-!
# Attempts to find a site

Finding a site may fail at every step: an offset is missing, memory cannot be read, a convention is
not supported, there is no room for a jump. Wherever it ends, all that could be read before is there
as it was, and the fault is never that of another redirect (`harmless_findSite`).

What is asked of the memory is asked of single accesses (`SparingMemory`); a chain of harmless steps
is harmless (`Harmless.bind`). A write is not, but the only one goes to memory that is new
(`harmless_nearTarget`).

The proof goes along the code of the search, one lemma for each routine it calls. Keeping what can
be read and not having the fault of another redirect are shown together, since both are closed under
sequences in the same way and fail at the same places.
-/

namespace CilCapture.Hook

open Engine Memory

variable {W : Type} [AddressSpace W] {possible : W → Prop} {α β : Type}

/-- A step that leaves all that could be read as it was, whatever it comes to, and does not fail
because of another redirect. -/
structure Harmless (possible : W → Prop) (step : EStateM Fault W α) : Prop where
  keeps : Keeps possible step
  grows : ∀ {world : W}, possible world → Extends world (finalState (step world))
  unrelated : ∀ {world after : W}, possible world → step world ≠ .error .hookActive after

namespace Harmless

/-- A step is harmless when each of its results is. -/
theorem of_results {step : EStateM Fault W α}
    (succeeds : ∀ {world after : W} {value : α}, possible world → step world = .ok value after →
      possible after ∧ Extends world after)
    (fails : ∀ {world after : W} {fault : Fault}, possible world →
      step world = .error fault after →
      fault ≠ .hookActive ∧ possible after ∧ Extends world after) : Harmless possible step := by
  have both (world : W) (here : possible world) :
      possible (finalState (step world)) ∧ Extends world (finalState (step world)) := by
    cases taken : step world with
    | ok value after => exact succeeds here taken
    | error fault after => exact (fails here taken).2
  exact ⟨fun world here => (both world here).1, fun here => (both _ here).2,
    fun here failed => (fails here failed).1 rfl⟩

/-- A step that does nothing is harmless. -/
theorem pure (value : α) : Harmless possible (Pure.pure value : EStateM Fault W α) :=
  ⟨keeps_pure value, fun _ => .refl _, nofun⟩

/-- Failing is harmless, unless it is for another redirect. -/
theorem throw {fault : Fault} (other : fault ≠ .hookActive) :
    Harmless possible (MonadExcept.throw fault : EStateM Fault W α) := by
  refine ⟨keeps_throw fault, fun _ => .refl _, ?_⟩
  intro world after _ failed
  cases failed
  exact other rfl

/-- What follows a step that fails does not matter. -/
theorem throw_bind {fault : Fault} (other : fault ≠ .hookActive) (next : α → EStateM Fault W β) :
    Harmless possible (MonadExcept.throw fault >>= next) :=
  throw other

/-- A settled result is harmless, unless it is the fault of another redirect. -/
theorem settle {result : Except Fault α} (other : result ≠ .error .hookActive) :
    Harmless possible (CilCapture.settle result : EStateM Fault W α) := by
  cases result with
  | ok value => exact pure value
  | error fault => exact throw fun same => other (congrArg _ same)

/-- Harmless steps are harmless one after the other, wherever they stop. -/
theorem bind {step : EStateM Fault W α} {next : α → EStateM Fault W β}
    (first : Harmless possible step) (second : ∀ value, Harmless possible (next value)) :
    Harmless possible (step >>= next) := by
  refine ⟨first.keeps.bind fun value => (second value).keeps, ?_, ?_⟩
  · intro world here
    have there := first.keeps world here
    have grown := first.grows here
    rw [finalState_bind]
    cases taken : step world with
    | error fault middle =>
      rw [taken] at grown
      exact grown
    | ok value middle =>
      rw [taken] at there grown
      exact grown.trans ((second value).grows there)
  · intro world after here failed
    rcases run_bind_eq_error.mp failed with failed | ⟨value, middle, taken, failed⟩
    · exact first.unrelated here failed
    · have there := first.keeps world here
      rw [taken] at there
      exact (second value).unrelated there failed

end Harmless

/-- Reading changes nothing, so that it is harmless when its faults are. -/
theorem harmless_load {address : Address} {length : Nat}
    (unrelated : ∀ {world : W}, AddressSpace.read address length world ≠ .error .hookActive) :
    Harmless possible (load address length) := by
  refine .of_results ?_ ?_
  · intro world after bytes here loaded
    obtain ⟨rfl, -⟩ := load_eq_ok loaded
    exact ⟨here, .refl world⟩
  · intro world after fault here failed
    unfold load at failed
    split at failed
    next => cases failed
    next fault result =>
      cases failed
      exact ⟨fun same => unrelated (same ▸ result), here, .refl world⟩

/-- A memory whose accesses are harmless, also when they fail, but for writes: one that fails has no
fault of redirects either. -/
structure SparingMemory [CodeSpace W] (possible : W → Prop) : Prop
    extends GrowingMemory possible where
  load : ∀ (address : Address) (length : Nat), Harmless possible (load (W := W) address length)
  allocateNear : ∀ (near : Address) (size : Nat),
    Harmless possible (AddressSpace.allocateNear (W := W) near size)
  place : ∀ code : Bytes, Harmless possible (CodeSpace.place (W := W) code)
  write : ∀ {world after : W} {address : Address} {data : Bytes}, possible world →
    AddressSpace.write address data world ≠ .error .hookActive after

variable [CodeSpace W]

/-! ## Reading -/

/-- Reading a byte is harmless. -/
theorem harmless_loadByte (memory : SparingMemory possible) (address : Address) :
    Harmless possible (loadByte address : EStateM Fault W UInt8) :=
  (memory.load address 1).bind fun bytes => .pure (UInt8.ofNat bytes.toNat)

/-- Reading a pointer is harmless. -/
theorem harmless_loadPointer (memory : SparingMemory possible) (address : Address) (size : Nat) :
    Harmless possible (loadPointer address size : EStateM Fault W Address) := by
  unfold loadPointer withPointer
  split
  next => exact (memory.load address size).bind fun bytes => .pure bytes.toNat
  next => exact .throw nofun

/-! ## Placing code -/

/-- No adapter is refused because of another redirect. -/
theorem adapter_ne_hookActive (source called : Convention) (target : UInt32) :
    adapter source called target ≠ .error .hookActive := by
  intro failed
  have moves : argumentMoves? source called = .error .hookActive := by
    unfold adapter at failed
    cases result : argumentMoves? source called with
    | error fault =>
      rw [result] at failed
      cases failed
      rfl
    | ok moves =>
      rw [result] at failed
      cases moves <;> cases failed
  unfold argumentMoves? at moves
  split at moves
  next => cases moves
  next => cases moves
  next => cases moves
  next => cases moves
  next => split at moves <;> cases moves

/-- Converting an address to another convention places an adapter at most. -/
theorem harmless_convert (memory : SparingMemory possible) (architecture : Architecture)
    (address : Address) (source called : Convention) :
    Harmless possible (convert architecture address source called : EStateM Fault W Address) := by
  unfold convert
  split
  next => exact .pure address
  next =>
    split
    next => exact .throw nofun
    next =>
      have unrelated := adapter_ne_hookActive source called (UInt32.ofNat address)
      cases needed : adapter source called (UInt32.ofNat address) with
      | error fault => exact .throw fun same => unrelated (needed.trans (congrArg _ same))
      | ok code =>
        cases code with
        | none => exact .pure address
        | some code => exact memory.place code

/-- Making an address callable is harmless, whether it is code already, needs an adapter or cannot
be had. -/
theorem harmless_callable (memory : SparingMemory possible) (architecture : Architecture)
    (width : Nat) (address : Address) (source : Convention) :
    Harmless possible (callable architecture width address source : EStateM Fault W Address) := by
  unfold callable
  split
  next => exact .throw nofun
  next => exact harmless_convert memory architecture address source ownConvention

/-- The jump goes to new memory, so that all that could be read before is there as it was. -/
theorem harmless_nearTarget (memory : SparingMemory possible) (architecture : Architecture)
    (site target : Address) :
    Harmless possible (nearTarget architecture site target : EStateM Fault W Address) := by
  have room := memory.allocateNear site absoluteJumpSize
  refine .of_results (extends_of_nearTarget memory.toGrowingMemory) ?_
  intro world after fault here failed
  unfold nearTarget at failed
  split at failed
  next => cases failed
  next =>
    rcases run_bind_eq_error.mp failed with none_near | ⟨stub, grown, allocated, failed⟩
    · have there := room.keeps world here
      have grown := room.grows here
      rw [none_near] at there grown
      exact ⟨fun same => room.unrelated here (same ▸ none_near), there, grown⟩
    · obtain ⟨there, still, -⟩ := memory.allocate here allocated
      rcases run_bind_eq_error.mp failed with refused | ⟨_, _, _, returned⟩
      · have same := memory.read_failed there refused
        exact ⟨fun unrelated => memory.write there (unrelated ▸ refused),
          memory.possible_of_write there refused, still.trans ⟨fun read => (same _ _).trans read⟩⟩
      · cases returned

/-! ## The site -/

/-- A target that is too far is not the fault of another redirect. -/
theorem displacementTo_ne_hookActive (operand target : Address) :
    displacementTo operand target ≠ .error .hookActive := by
  unfold displacementTo
  dsimp only
  split
  next => nofun
  next => split <;> nofun

/-- Looking for a call to redirect is harmless at every point where it may give up. -/
theorem harmless_findCall (memory : SparingMemory possible) (context : HookContext) :
    Harmless possible (findCall context : EStateM Fault W HookSite) := by
  unfold findCall
  refine .bind (.settle ?_) fun offset => .bind (harmless_loadByte memory _) fun opcode => ?_
  · unfold requireOffset
    split <;> nofun
  · dsimp only
    split
    next =>
      refine .throw_bind ?_ _
      nofun
    next =>
      exact (memory.load _ 4).bind fun found =>
        (harmless_callable memory _ _ _ _).bind fun routine =>
          (harmless_convert memory _ _ _ _).bind fun entry =>
            (harmless_nearTarget memory _ _ _).bind fun stub =>
              .bind (.settle (displacementTo_ne_hookActive _ _)) fun redirected => .pure _

/-- Looking for a table to redirect is harmless at every point where it may give up. -/
theorem harmless_findTable (memory : SparingMemory possible) (context : HookContext) :
    Harmless possible (findTable context : EStateM Fault W HookSite) := by
  unfold findTable
  dsimp only
  split
  next =>
    refine .throw_bind ?_ _
    nofun
  next =>
    exact (harmless_loadPointer memory _ _).bind fun slot =>
      (memory.load slot _).bind fun found =>
        (harmless_callable memory _ _ _ _).bind fun routine =>
          (harmless_convert memory _ _ _ _).bind fun redirected => .pure _

/-- Finding a site of either kind is harmless, wherever it ends. -/
theorem harmless_findSite (memory : SparingMemory possible) (kind : HookKind)
    (context : HookContext) :
    Harmless possible (findSite kind context : EStateM Fault W HookSite) := by
  cases kind with
  | call => exact harmless_findCall memory context
  | table => exact harmless_findTable memory context

/-! ## Rehearsals -/

open Rehearsal

/-- What is not mapped is not the fault of another redirect. -/
theorem missing_ne_hookActive (address : Address) (length : Nat) (memory : MappedMemory) :
    memory.missing address length ≠ .hookActive := by
  unfold MappedMemory.missing
  split <;> nofun

/-- New memory that is not found leaves the world as it is. -/
theorem allocateFirst_eq_error {candidates : List Address} {near : Address} {size : Nat}
    {memory after : MappedMemory} {fault : Fault}
    (failed : MappedMemory.allocateFirst candidates near size memory = .error fault after) :
    after = memory ∧ fault ≠ .hookActive := by
  unfold MappedMemory.allocateFirst at failed
  split at failed
  next =>
    split at failed
    next =>
      cases failed
      exact ⟨rfl, nofun⟩
    next => cases failed
  next =>
    cases failed
    exact ⟨rfl, nofun⟩

/-- A step on the buffers that fails does so with the buffers in some state and the rest as it was.
-/
theorem onBuffers_eq_error {step : EStateM Fault MappedMemory α} {memory after : GuardedMemory}
    {fault : Fault} (failed : GuardedMemory.onBuffers step memory = .error fault after) :
    ∃ buffers, step memory.buffers = .error fault buffers ∧ after = { memory with buffers } := by
  unfold GuardedMemory.onBuffers at failed
  split at failed
  next => cases failed
  next fault buffers result =>
    cases failed
    exact ⟨buffers, result, rfl⟩

/-- A step on the memory that fails does so with the memory in some state and the rest as it was. -/
theorem onMemory_eq_error {step : EStateM Fault GuardedMemory α} {world after : World}
    {fault : Fault} (failed : World.onMemory step world = .error fault after) :
    ∃ memory, step world.memory = .error fault memory ∧ after = { world with memory } := by
  unfold World.onMemory at failed
  split at failed
  next => cases failed
  next fault memory result =>
    cases failed
    exact ⟨memory, result, rfl⟩

/-- A write that is refused is not refused because of another redirect. -/
theorem guarded_write_ne_hookActive {address : Address} {data : Bytes}
    {memory after : GuardedMemory} :
    GuardedMemory.write address data memory ≠ .error .hookActive after := by
  intro failed
  unfold GuardedMemory.write at failed
  split at failed
  next fault refused =>
    cases failed
    obtain ⟨range, -, refusal⟩ := List.exists_of_findSome?_eq_some refused
    unfold AddressRange.refusal? at refusal
    split at refusal
    next => cases refusal
    next => split at refusal <;> cases refusal
  next =>
    split at failed
    next => split at failed <;> cases failed
    next fault buffers on_buffers =>
      cases failed
      obtain ⟨_, unmapped, -⟩ := onBuffers_eq_error on_buffers
      unfold MappedMemory.write at unmapped
      split at unmapped
      next => cases unmapped
      next => exact missing_ne_hookActive _ _ _ (EStateM.Result.error.inj unmapped).1

/-- The memory of a rehearsal fails for reasons of its own, and changes nothing when it does. -/
theorem rehearsal_sparing : SparingMemory fun world : World => world.memory.Sound where
  toGrowingMemory := rehearsal_growing
  load := by
    intro address length
    refine harmless_load fun {world} failed => ?_
    change MappedMemory.read address length world.memory.buffers = _ at failed
    unfold MappedMemory.read at failed
    split at failed
    next => cases failed
    next => exact missing_ne_hookActive _ _ _ (Except.error.inj failed)
  allocateNear := by
    intro near size
    refine .of_results ?_ ?_
    · intro world grown base sound allocated
      obtain ⟨there, still, -⟩ := rehearsal_growing.allocate sound allocated
      exact ⟨there, still⟩
    · intro world after fault sound failed
      obtain ⟨_, on_memory, rfl⟩ := onMemory_eq_error failed
      obtain ⟨_, on_buffers, rfl⟩ := onBuffers_eq_error on_memory
      obtain ⟨rfl, unrelated⟩ := allocateFirst_eq_error on_buffers
      exact ⟨unrelated, sound, .refl world⟩
  place := fun code => ⟨fun _ sound => sound, fun _ => ⟨id⟩, nofun⟩
  write := by
    intro world after address data sound failed
    obtain ⟨_, refused, -⟩ := onMemory_eq_error failed
    exact guarded_write_ne_hookActive refused

end CilCapture.Hook
