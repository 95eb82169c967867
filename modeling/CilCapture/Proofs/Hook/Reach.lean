import CilCapture.Proofs.Hook.Exclusive
import CilCapture.Proofs.Memory.Near

/-!
# Calls that reach

A relative call holds a signed displacement of four bytes. `nearRange` is so much below what such a
displacement spans that any address within it can be called (`displacementTo_of_near`), the four
bytes of the operand and the rounding to a granule included. An entry point that is further away is
called through a jump near the call (`nearTarget_reaches`), so no call to an entry point is ever too
far on x64.

Addresses are natural numbers here, and what the code computes with signs is brought back to them by
`signed_eq_or`: a difference of two addresses fits a displacement exactly if it does so with signs.
That no distance is too far is shown step by step through the search (`WithinReach`), because its
fault could be made at any of them.

The candidates and their order are in `Proofs.Memory.Near`.
-/

namespace CilCapture.Hook

open Engine Memory

/-! ## Displacements -/

section

variable {operand target : Nat}

/-- Low addresses are the same with a sign. -/
theorem signed_of_lt {address : Nat} (low : address < 0x8000000000000000) :
    Address.signed address = address :=
  if_pos low

/-- A signed word differs from its address by nothing or by the size of the address space. -/
theorem signed_eq_or (address : Nat) :
    Address.signed address = address ∨ Address.signed address = address - 0x10000000000000000 := by
  unfold Address.signed
  split
  next => exact .inl rfl
  next => exact .inr rfl

/-- The signed numbers of 64 bits, by their bounds. -/
theorem holdsSigned_iff {value : Int} :
    Address.holdsSigned value = true ↔
      -0x8000000000000000 ≤ value ∧ value < 0x8000000000000000 := by
  unfold Address.holdsSigned
  rw [Bool.and_eq_true, decide_eq_true_eq, decide_eq_true_eq]
  exact Iff.rfl

/-- The displacement to an address that is near, where addresses and signed words agree. -/
theorem displacementTo_of_near (near : distance operand target < nearRange)
    (operand_low : operand < 0x4000000000000000)
    (target_low : target < 0x4000000000000000 + 0x80000000) :
    ∃ displacement, displacementTo operand target = .ok displacement ∧
      callTarget operand displacement = target := by
  obtain ⟨below, above⟩ := distance_lt_iff.mp near
  unfold nearRange at below above
  have holdsBehind : Address.holdsSigned ((operand : Int) + 4) = true :=
    holdsSigned_iff.mpr ⟨by omega, by omega⟩
  have holds : Address.holdsSigned ((target : Int) - (operand + 4)) = true :=
    holdsSigned_iff.mpr ⟨by omega, by omega⟩
  refine ⟨(target : Int) - (operand + 4), ?_, ?_⟩
  · unfold displacementTo
    rw [signed_of_lt (Nat.lt_of_lt_of_le operand_low (by decide)),
      signed_of_lt (Nat.lt_of_lt_of_le target_low (by decide))]
    dsimp only
    rw [holdsBehind, holds, if_neg (by decide)]
    exact if_pos ⟨by omega, by omega⟩
  · have sum : (operand : Int) + 4 + ((target : Int) - (operand + 4)) = target := by omega
    have small : target < Address.limit := Nat.lt_of_lt_of_le target_low (by decide)
    rw [callTarget, sum, Address.wrap, ← Int.natCast_emod, Int.toNat_natCast]
    exact Nat.mod_eq_of_lt small

/-- A near address is never too far away, also where signed words turn negative between the two. -/
theorem displacementTo_ne_outOfRange (near : distance operand target < nearRange)
    (from_ to_ : Address) :
    displacementTo operand target ≠ .error (.displacementOutOfRange from_ to_) := by
  obtain ⟨below, above⟩ := distance_lt_iff.mp near
  unfold nearRange at below above
  intro failed
  unfold displacementTo at failed
  dsimp only at failed
  split at failed
  next => cases failed
  next holds =>
    rw [Bool.or_eq_true, not_or, Bool.not_eq_true', Bool.not_eq_false, Bool.not_eq_true',
      Bool.not_eq_false, holdsSigned_iff, holdsSigned_iff] at holds
    obtain ⟨-, least, most⟩ := holds
    split at failed
    next => cases failed
    next outside =>
      apply outside
      rcases signed_eq_or operand with operand_eq | operand_eq <;>
        rcases signed_eq_or target with target_eq | target_eq <;>
        rw [operand_eq, target_eq] at least most ⊢ <;> omega

end

/-! ## The jump -/

/-- What comes of a call site in a memory of buffers: the target itself if it is near, else a jump
at the first free candidate. -/
theorem nearTarget_cases {site : Address} (exists_ : site < Address.limit) (target : Address)
    (memory : MappedMemory) :
    (distance site target < nearRange ∧ nearTarget .x64 site target memory = .ok target memory) ∨
    (∃ base, memory.FirstFree (nearCandidates site) absoluteJumpSize base ∧
      nearTarget .x64 site target memory =
        .ok base ⟨memory.regions ++ [⟨base, absoluteJump target⟩]⟩) ∨
    (∀ candidate ∈ nearCandidates site, memory.Occupied candidate absoluteJumpSize) ∧
      nearTarget .x64 site target memory =
        .error (.memory site (.noRoomNear absoluteJumpSize)) memory := by
  have length_jump : (absoluteJump target).length = absoluteJumpSize := by
    simp [absoluteJump, absoluteJumpSize]
  by_cases near : distance site target < nearRange
  · have reached : Architecture.x64 = .x86 ∨
        max site target - min site target < nearRange := .inr near
    refine .inl ⟨near, ?_⟩
    unfold nearTarget
    rw [if_pos reached]
    rfl
  · have far : ¬ (Architecture.x64 = .x86 ∨
        max site target - min site target < nearRange) := by
      rintro (other | near')
      · cases other
      · exact near near'
    have room : ∀ candidate ∈ nearCandidates site,
        (candidate + absoluteJumpSize : Nat) < Address.limit :=
      fun _ mem => candidate_add_lt exists_ mem (by decide)
    unfold nearTarget
    rw [if_neg far, MappedMemory.allocateNear_eq]
    rcases MappedMemory.allocateFirst_cases memory site room with
      ⟨base, first, allocated⟩ | ⟨occupied, none_near⟩
    · refine .inr (.inl ⟨base, first, ?_⟩)
      -- the region just mapped holds zeros and is as long as the jump, so the jump goes in
      have stored : MappedMemory.storeFirst base (absoluteJump target)
          (memory.regions ++ [⟨base, Bytes.zeros absoluteJumpSize⟩]) =
            some (memory.regions ++ [⟨base, absoluteJump target⟩]) := by
        apply @MappedMemory.storeFirst_append memory.regions ⟨base, Bytes.zeros absoluteJumpSize⟩
        · simp [absoluteJump]
        · rw [length_jump]
          exact first.free
        · rw [length_jump, Bytes.length_zeros]
      have wrote : AddressSpace.write base (absoluteJump target)
          (⟨memory.regions ++ [⟨base, Bytes.zeros absoluteJumpSize⟩]⟩ : MappedMemory) =
            .ok () ⟨memory.regions ++ [⟨base, absoluteJump target⟩]⟩ := by
        show MappedMemory.write _ _ _ = _
        rw [MappedMemory.write, stored]
      exact (run_bind_of_ok allocated).trans (run_bind_of_ok wrote)
    · exact .inr (.inr ⟨occupied, run_bind_eq_error.mpr (.inl none_near)⟩)

/-- Whatever is called at a site is near it: the target if it is near, and every candidate is. -/
theorem near_of_nearTarget {site target reached : Address} {memory after : MappedMemory}
    (done : nearTarget .x64 site target memory = .ok reached after) :
    distance site reached < nearRange := by
  unfold nearTarget at done
  split at done
  next close =>
    cases done
    rcases close with other | near
    · cases other
    · exact near
  next =>
    obtain ⟨base, grown, allocated, done⟩ := run_bind_eq_ok.mp done
    obtain ⟨_, _, _, returned⟩ := run_bind_eq_ok.mp done
    cases returned
    rw [MappedMemory.allocateNear_eq] at allocated
    exact (nearCandidate_of_mem (MappedMemory.mem_of_allocateFirst allocated)).close

/-! ## Redirects of calls -/

section

variable {α β : Type}

/-- A step that never fails because a call is too far from its target. -/
structure WithinReach (step : EStateM Fault MappedMemory α) : Prop where
  never : ∀ {memory after : MappedMemory} {operand target : Address},
    step memory ≠ .error (.displacementOutOfRange operand target) after

namespace WithinReach

/-- A step that does nothing fails for no distance. -/
theorem pure (value : α) : WithinReach (Pure.pure value) := ⟨nofun⟩

/-- What follows may make use of what the first step came to. -/
theorem bind {step : EStateM Fault MappedMemory α} {next : α → EStateM Fault MappedMemory β}
    (first : WithinReach step)
    (second : ∀ {memory middle : MappedMemory} {value : α}, step memory = .ok value middle →
      WithinReach (next value)) : WithinReach (step >>= next) := by
  constructor
  intro memory after operand target failed
  rcases run_bind_eq_error.mp failed with failed | ⟨value, middle, taken, failed⟩
  · exact first.never failed
  · exact (second taken).never failed

/-- A settled result fails for a distance only if it is that fault. -/
theorem settle {result : Except Fault α}
    (other : ∀ operand target, result ≠ .error (.displacementOutOfRange operand target)) :
    WithinReach (CilCapture.settle result) := by
  cases result with
  | ok value => exact pure value
  | error fault =>
    constructor
    intro memory after operand target failed
    cases failed
    exact other operand target rfl

end WithinReach

/-- What is not mapped is a fault of its own. -/
theorem missing_ne_outOfRange (address : Address) (length : Nat) (memory : MappedMemory)
    (operand target : Address) :
    memory.missing address length ≠ .displacementOutOfRange operand target := by
  unfold MappedMemory.missing
  split <;> nofun

/-- Reading fails for what is not mapped, not for a distance. -/
theorem withinReach_load (address : Address) (length : Nat) :
    WithinReach (load address length) := by
  constructor
  intro memory after operand target failed
  unfold load at failed
  split at failed
  next => cases failed
  next fault read =>
    change memory.read address length = _ at read
    unfold MappedMemory.read at read
    split at read
    next => cases read
    next =>
      cases read
      injection failed with same
      exact missing_ne_outOfRange _ _ _ _ _ same

/-- The search among candidates fails when all of them are taken, not for a distance. -/
theorem withinReach_allocateFirst (candidates : List Address) (near : Address) (size : Nat) :
    WithinReach (MappedMemory.allocateFirst candidates near size) := by
  constructor
  intro memory after operand target failed
  unfold MappedMemory.allocateFirst at failed
  split at failed
  next => split at failed <;> cases failed
  next => cases failed

/-- Writing fails for what is not mapped, not for a distance. -/
theorem withinReach_write (address : Address) (data : Bytes) :
    WithinReach (MappedMemory.write address data) := by
  constructor
  intro memory after operand target failed
  unfold MappedMemory.write at failed
  split at failed
  next => cases failed
  next =>
    injection failed with same
    exact missing_ne_outOfRange _ _ _ _ _ same

/-- A jump for a target that is out of reach is placed where the call reaches it, so what fails here
fails for want of room. -/
theorem withinReach_nearTarget (site target : Address) :
    WithinReach (nearTarget .x64 site target) := by
  unfold nearTarget
  split
  next => exact .pure _
  next =>
    rw [MappedMemory.allocateNear_eq]
    exact (withinReach_allocateFirst _ _ _).bind fun _ =>
      (withinReach_write _ _).bind fun _ => .pure _

variable [CodeSpace MappedMemory]

/-- Of a wide architecture every convention is the same. -/
theorem convert_x64 (address : Address) (source called : Convention) :
    (convert .x64 address source called : EStateM Fault MappedMemory Address) = pure address :=
  if_pos rfl

/-- What the call is to reach is near it when the displacement is computed. -/
theorem withinReach_findCall {context : HookContext}
    (wide : context.environment.architecture = .x64) :
    WithinReach (findCall context : EStateM Fault MappedMemory HookSite) := by
  unfold findCall callable nativeAddress
  simp only [wide, convert_x64]
  have required (offset : UInt32) (key : String) :
      WithinReach
        (CilCapture.settle (requireOffset offset key) : EStateM Fault MappedMemory _) := by
    apply WithinReach.settle
    intro operand target
    unfold requireOffset
    split <;> nofun
  refine (required _ _).bind fun _ => ?_
  refine .bind ((withinReach_load _ 1).bind fun _ => .pure _) fun _ => ?_
  split
  next => exact ⟨fun failed => by cases failed⟩
  next =>
    refine (withinReach_load _ 4).bind fun _ => ?_
    refine (WithinReach.pure _).bind fun _ => (WithinReach.pure _).bind fun _ => ?_
    refine (withinReach_nearTarget _ _).bind fun reached => ?_
    have near := near_of_nearTarget reached
    exact .bind (.settle (displacementTo_ne_outOfRange near)) fun _ => .pure _

end

/-! ## Calls to anywhere -/

/-- A jump to a target is placed for a call: in a region of its own, where the call reaches it. -/
structure JumpPlaced (site target reached : Address) (memory after : MappedMemory) : Prop where
  region_eq : after = ⟨memory.regions ++
    [⟨reached, [0xFF, 0x25, 0x00, 0x00, 0x00, 0x00] ++ Bytes.ofNat 8 target⟩]⟩
  length_eq : (absoluteJump target).length = 14
  apart : ∀ region ∈ memory.regions, region.Apart ⟨reached, absoluteJump target⟩
  holds : after.read reached 14 =
    .ok ([0xFF, 0x25, 0x00, 0x00, 0x00, 0x00] ++ Bytes.ofNat 8 target)
  unchanged : Extends memory after
  first : memory.FirstFree (nearCandidates site) 14 reached

/-- The jump lies in the first free place, apart from all that was there before. -/
theorem jumpPlaced {site target base : Address} {memory : MappedMemory}
    (first : memory.FirstFree (nearCandidates site) absoluteJumpSize base) :
    JumpPlaced site target base memory ⟨memory.regions ++ [⟨base, absoluteJump target⟩]⟩ := by
  have length_jump : (absoluteJump target).length = 14 := by simp [absoluteJump]
  have apart : ∀ region ∈ memory.regions, region.Apart ⟨base, absoluteJump target⟩ := by
    intro region mem
    apply MappedMemory.apart_of_free
    rw [length_jump]
    exact first.free region mem
  refine ⟨rfl, length_jump, apart, ?_, MappedMemory.extends_append memory _, first⟩
  have others : memory.regions.find? (·.covers base 14) = none := by
    apply List.find?_eq_none.mpr
    intro region mem inside
    have free := first.free region mem
    obtain ⟨above, below⟩ := Mapping.covers_iff.mp inside
    have size : absoluteJumpSize = 14 := rfl
    exact Bool.eq_false_iff.mp free (Mapping.overlaps_iff.mpr ⟨by omega, by omega⟩)
  have found : List.find? (·.covers base 14) [Mapping.mk base (absoluteJump target)] =
      some ⟨base, absoluteJump target⟩ := by
    simp [Mapping.covers, length_jump]
  have whole : Mapping.slice ⟨base, absoluteJump target⟩ base 14 = absoluteJump target := by
    simp [Mapping.slice, List.take_of_length_le, length_jump]
  unfold MappedMemory.read
  rw [List.find?_append, others, Option.none_or, found]
  exact congrArg Except.ok whole

/-- An entry point can be called from any site. It is called as it is when it is near, and else
through a jump at the first free candidate, so that there is a displacement to what is called;
only where every candidate is occupied there is none. The candidates come nearest first, and a
redirect of a call never fails because its entry point is too far away. -/
theorem nearTarget_reaches {site : Nat} (site_low : site < 0x4000000000000000) (target : Nat)
    (memory : MappedMemory) :
    (∀ reached after, nearTarget .x64 site target memory = .ok reached after →
      (∃ displacement, displacementTo site reached = .ok displacement ∧
        callTarget site displacement = reached) ∧
      (reached = target ∧ after = memory ∨ JumpPlaced site target reached memory after)) ∧
    (∀ fault after, nearTarget .x64 site target memory = .error fault after →
      after = memory ∧ ∀ candidate ∈ nearCandidates site, memory.Occupied candidate 14) ∧
    (∀ candidate ∈ nearCandidates site, NearCandidate site candidate) ∧
    (nearCandidates site).Pairwise (fun first second => first ≠ second ∧
      distance (granuleOf site) first ≤ distance (granuleOf site) second) ∧
    ∀ (C : Type) [CodeSpace MappedMemory] (owner : Compile.ThreadId) (context : HookContext)
      (process after : Compile.Process C MappedMemory) (operand callee : Address),
      context.environment.architecture = .x64 →
      create owner .call context process ≠
        .error (.displacementOutOfRange operand callee) after := by
  have exists_ : site < Address.limit := Nat.lt_of_lt_of_le site_low (by decide)
  refine ⟨?_, ?_, fun _ => nearCandidate_of_mem, pairwise_nearCandidates site, ?_⟩
  · intro reached after done
    have near := near_of_nearTarget done
    obtain ⟨-, above⟩ := distance_lt_iff.mp near
    have range : site + nearRange ≤ 0x4000000000000000 + 0x80000000 := by
      unfold nearRange
      omega
    have low : reached < 0x4000000000000000 + 0x80000000 := Nat.lt_of_lt_of_le above range
    refine ⟨displacementTo_of_near near site_low low, ?_⟩
    rcases nearTarget_cases exists_ target memory with
      ⟨-, same⟩ | ⟨base, first, jumped⟩ | ⟨-, failed⟩
    · cases same.symm.trans done
      exact .inl ⟨rfl, rfl⟩
    · cases jumped.symm.trans done
      exact .inr (jumpPlaced first)
    · cases failed.symm.trans done
  · intro fault after failed
    rcases nearTarget_cases exists_ target memory with
      ⟨-, same⟩ | ⟨base, -, jumped⟩ | ⟨occupied, refused⟩
    · cases same.symm.trans failed
    · cases jumped.symm.trans failed
    · cases refused.symm.trans failed
      exact ⟨rfl, occupied⟩
  · intro C _ owner context process after operand callee wide failed
    rcases create_eq_error failed with ⟨-, other, -⟩ | ⟨-, world, failed, -⟩
    · cases other
    · exact (withinReach_findCall wide).never failed

/-- Memory in which the first candidate of a call is taken. -/
def besideCall : MappedMemory := ⟨[⟨0x7FF610000000, [0x90]⟩, ⟨0x7FF610010000, [0xC3]⟩]⟩

/-- The first candidate is taken here, so the jump is placed at the next one, and the call reaches
it. -/
theorem nearTarget_reaches_besideCall : ∃ after,
    nearTarget .x64 0x7FF610000105 0x555500001000 besideCall = .ok 0x7FF60FFF0000 after ∧
    (∃ displacement, displacementTo 0x7FF610000105 0x7FF60FFF0000 = .ok displacement ∧
      callTarget 0x7FF610000105 displacement = 0x7FF60FFF0000) ∧
    JumpPlaced 0x7FF610000105 0x555500001000 0x7FF60FFF0000 besideCall after := by
  obtain ⟨succeeds, -⟩ := @nearTarget_reaches 0x7FF610000105 (by decide) 0x555500001000
    besideCall
  have found : (nearCandidates 0x7FF610000105).find? (fun base =>
      Address.limit ≤ base + absoluteJumpSize ||
        !besideCall.regions.any (·.overlaps base absoluteJumpSize)) = some 0x7FF60FFF0000 := by
    decide +kernel
  have done : nearTarget .x64 0x7FF610000105 0x555500001000 besideCall =
      .ok 0x7FF60FFF0000
        ⟨besideCall.regions ++ [⟨0x7FF60FFF0000, absoluteJump 0x555500001000⟩]⟩ := by
    unfold nearTarget
    rw [if_neg (by decide), MappedMemory.allocateNear_eq]
    have taken : MappedMemory.allocateFirst (nearCandidates 0x7FF610000105) 0x7FF610000105
        absoluteJumpSize besideCall = .ok 0x7FF60FFF0000
          ⟨besideCall.regions ++ [⟨0x7FF60FFF0000, Bytes.zeros absoluteJumpSize⟩]⟩ := by
      rw [MappedMemory.allocateFirst, found]
      rfl
    exact (run_bind_of_ok taken).trans rfl
  obtain ⟨reached, placed⟩ := succeeds _ _ done
  exact ⟨_, done, reached, placed.resolve_left fun same => absurd same.1 (by decide)⟩

end CilCapture.Hook
