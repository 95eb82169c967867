import CilCapture.Proofs.Memory.Buffers

/-!
# Memory near an address

Memory for a relative call may be placed at the multiples of the granule around it, nearest first.
All of them are close enough for a call (`nearCandidate_of_mem`), none comes twice, and none lies
nearer to the granule of the call than one before it (`pairwise_nearCandidates`). In a memory of
buffers the first of them that is free is taken, and there is no memory near only if none is
(`allocateFirst_cases`).

The search is over a list, so its outcome is told by where in the list it stopped. The list goes
outwards from the granule of the call, at each distance above it first and then below, as far as
there are addresses.
-/

namespace CilCapture.Memory

/-- How far two addresses are from each other. -/
def distance (first second : Nat) : Nat := max first second - min first second

/-- Being close does not depend on which address is the higher one. -/
theorem distance_lt_iff {first second range : Nat} :
    distance first second < range ↔ first < second + range ∧ second < first + range := by
  unfold distance
  omega

/-- The start of the granule in which an address lies. -/
def granuleOf (address : Nat) : Nat := address / granule * granule

/-! ## Candidates -/

variable {near base step candidate : Nat}

/-- Candidates are so many granules above or below, as far as the address space goes. -/
theorem mem_candidatesAt : candidate ∈ candidatesAt base step ↔
    candidate = base + step * granule ∧ candidate < Address.limit ∨
      0 < candidate ∧ base = candidate + step * granule := by
  unfold candidatesAt
  simp only [List.mem_append, List.mem_ite_nil_right, List.mem_singleton]
  constructor
  · rintro (⟨exists_, rfl⟩ | ⟨above, rfl⟩)
    · exact .inl ⟨rfl, exists_⟩
    · exact .inr ⟨by omega, by omega⟩
  · rintro (⟨rfl, exists_⟩ | ⟨above, rfl⟩)
    · exact .inl ⟨exists_, rfl⟩
    · exact .inr ⟨by omega, by omega⟩

/-- The candidates of one step are as far away as the step says. -/
theorem distance_of_mem (mem : candidate ∈ candidatesAt base step) :
    distance base candidate = step * granule := by
  unfold distance
  rcases mem_candidatesAt.mp mem with ⟨rfl, -⟩ | ⟨-, rfl⟩ <;> omega

/-- The candidates are those of every number of granules in range but none. -/
theorem mem_nearCandidates : candidate ∈ nearCandidates near ↔
    ∃ step, 1 ≤ step ∧ step < nearRange / granule ∧
      candidate ∈ candidatesAt (granuleOf near) step := by
  have steps (step : Nat) : step ∈ List.range' 1 (nearRange / granule - 1) ↔
      1 ≤ step ∧ step < nearRange / granule := by
    rw [List.mem_range'_1]
    have : 1 ≤ nearRange / granule := by decide
    omega
  simp only [nearCandidates, List.mem_flatMap, steps, and_assoc]
  exact Iff.rfl

/-- An address at which memory for a call near another one can be placed. -/
structure NearCandidate (near candidate : Nat) : Prop where
  ne_zero : candidate ≠ 0
  aligned : granule ∣ candidate
  close : distance near candidate < nearRange

/-- Every candidate can be used: it is not null, starts a granule and is close enough. -/
theorem nearCandidate_of_mem (mem : candidate ∈ nearCandidates near) :
    NearCandidate near candidate := by
  obtain ⟨step, first, last, at_step⟩ := mem_nearCandidates.mp mem
  -- The address itself lies up to a granule above the start of its granule.
  have low : granuleOf near ≤ near := Nat.div_mul_le_self near granule
  have high : near < granuleOf near + granule := Nat.lt_div_mul_add (by decide)
  have aligned : granule ∣ granuleOf near := Nat.dvd_mul_left granule _
  have aligned_step : granule ∣ step * granule := Nat.dvd_mul_left granule _
  have reach : step * granule + granule ≤ nearRange := by
    rw [← Nat.succ_mul]
    exact Nat.mul_le_of_le_div granule (step + 1) nearRange last
  have positive : 0 < step * granule := Nat.mul_pos first (by decide)
  unfold granuleOf at *
  rcases mem_candidatesAt.mp at_step with ⟨rfl, -⟩ | ⟨above, below⟩
  · refine ⟨by omega, Nat.dvd_add aligned aligned_step, ?_⟩
    unfold distance
    omega
  · refine ⟨by omega, ?_, ?_⟩
    · rw [below] at aligned
      exact (Nat.dvd_add_left aligned_step).mp aligned
    · unfold distance
      omega

/-- There is room behind each candidate that exists. -/
theorem candidate_add_lt (exists_ : near < Address.limit) (mem : candidate ∈ nearCandidates near)
    {size : Nat} (small : size < granule) : (candidate + size : Nat) < Address.limit := by
  obtain ⟨step, -, -, at_step⟩ := mem_nearCandidates.mp mem
  obtain ⟨-, ⟨count, rfl⟩, -⟩ := nearCandidate_of_mem mem
  have below : granule * count < Address.limit := by
    rcases mem_candidatesAt.mp at_step with ⟨-, bound⟩ | ⟨-, below⟩
    · exact bound
    · have low : granuleOf near ≤ near := Nat.div_mul_le_self near granule
      omega
  unfold granule Address.limit at *
  omega

/-- No candidate comes twice, and none lies nearer to the granule than one before it. -/
theorem pairwise_nearCandidates (near : Nat) :
    (nearCandidates near).Pairwise fun first second => first ≠ second ∧
      distance (granuleOf near) first ≤ distance (granuleOf near) second := by
  apply List.pairwise_flatMap.mpr
  constructor
  · intro step mem
    have positive : 0 < step * granule :=
      Nat.mul_pos (List.mem_range'_1.mp mem).1 (by decide)
    change (candidatesAt (granuleOf near) step).Pairwise _
    unfold candidatesAt
    apply List.pairwise_append.mpr
    refine ⟨by split <;> simp, by split <;> simp, ?_⟩
    intro above memAbove below memBelow
    simp only [List.mem_ite_nil_right, List.mem_singleton] at memAbove memBelow
    obtain ⟨-, rfl⟩ := memAbove
    obtain ⟨room, rfl⟩ := memBelow
    unfold distance
    omega
  · refine (List.pairwise_lt_range' 1).imp ?_
    intro first second less a memFirst b memSecond
    have farther : first * granule < second * granule :=
      Nat.mul_lt_mul_of_pos_right less (by decide)
    rw [← distance_of_mem memFirst, ← distance_of_mem memSecond] at farther
    refine ⟨?_, Nat.le_of_lt farther⟩
    rintro rfl
    exact Nat.lt_irrefl _ farther

/-! ## Allocation -/

namespace MappedMemory

/-- A range that some region overlaps. -/
def Occupied (memory : MappedMemory) (address : Address) (length : Nat) : Prop :=
  ∃ region ∈ memory.regions, region.overlaps address length = true

/-- The first of some addresses at which a range is free. -/
structure FirstFree (memory : MappedMemory) (candidates : List Address) (length : Nat)
    (base : Address) : Prop where
  free : ∀ region ∈ memory.regions, region.overlaps base length = false
  first : ∃ before behind, candidates = before ++ base :: behind ∧
    ∀ other ∈ before, memory.Occupied other length

/-- Memory is taken at the first free address; there is none only if all are occupied. -/
theorem allocateFirst_cases (memory : MappedMemory) {candidates : List Address} (near : Address)
    {size : Nat} (room : ∀ candidate ∈ candidates, candidate + size < Address.limit) :
    (∃ base, memory.FirstFree candidates size base ∧
      allocateFirst candidates near size memory =
        .ok base ⟨memory.regions ++ [⟨base, Bytes.zeros size⟩]⟩) ∨
    (∀ candidate ∈ candidates, memory.Occupied candidate size) ∧
      allocateFirst candidates near size memory =
        .error (.memory near (.noRoomNear size)) memory := by
  have occupied_iff {address : Address} (mem : address ∈ candidates) :
      (decide (Address.limit ≤ address + size) ||
        !memory.regions.any (·.overlaps address size)) = false ↔
        memory.Occupied address size := by
    have inside : ¬ Address.limit ≤ address + size := Nat.not_le.mpr (room address mem)
    rw [decide_eq_false inside, Bool.false_or, Bool.not_eq_false', List.any_eq_true]
    exact Iff.rfl
  unfold allocateFirst
  cases found : candidates.find? fun base =>
      Address.limit ≤ base + size || !memory.regions.any (·.overlaps base size) with
  | some base =>
    obtain ⟨free, before, behind, rfl, occupied⟩ := List.find?_eq_some_iff_append.mp found
    have mem : base ∈ before ++ base :: behind := by simp
    have inside : ¬ Address.limit ≤ base + size := Nat.not_le.mpr (room base mem)
    refine .inl ⟨base, ⟨?_, before, behind, rfl, ?_⟩, if_neg inside⟩
    · rw [decide_eq_false inside, Bool.false_or, Bool.not_eq_true', List.any_eq_false] at free
      intro region here
      exact Bool.eq_false_iff.mpr (free region here)
    · intro other here
      have memOther : other ∈ before ++ base :: behind := List.mem_append_left _ here
      apply (occupied_iff memOther).mp
      simpa using occupied other here
  | none =>
    refine .inr ⟨?_, rfl⟩
    intro candidate mem
    apply (occupied_iff mem).mp
    exact Bool.eq_false_iff.mpr (List.find?_eq_none.mp found candidate mem)

/-- Memory near a call is allocated at the first candidate that is free. -/
theorem allocateNear_eq (near : Address) (size : Nat) :
    (AddressSpace.allocateNear near size : EStateM Fault MappedMemory Address) =
      allocateFirst (nearCandidates near) near size := by
  show MappedMemory.allocateNear near size = _
  rw [MappedMemory.allocateNear]

/-- What is allocated is one of the candidates. -/
theorem mem_of_allocateFirst {candidates : List Address} {near base : Address} {size : Nat}
    {memory after : MappedMemory}
    (allocated : allocateFirst candidates near size memory = .ok base after) :
    base ∈ candidates := by
  unfold allocateFirst at allocated
  split at allocated
  next found_base found =>
    split at allocated
    next => cases allocated
    next =>
      cases allocated
      exact List.mem_of_find?_eq_some found
  next => cases allocated

/-- A region that does not overlap a range lies before or behind it. -/
theorem apart_of_free {region other : Mapping}
    (free : region.overlaps other.base other.bytes.length = false) : region.Apart other := by
  have no_overlap := Bool.eq_false_iff.mp free
  rw [Ne, Mapping.overlaps_iff] at no_overlap
  unfold Mapping.Apart
  by_cases before : region.extent.2 ≤ other.extent.1
  · exact .inl before
  · refine .inr (Nat.le_of_not_lt fun starts => no_overlap ⟨Nat.lt_of_not_le before, starts⟩)

/-- What is stored in a region that no other one overlaps is stored there. -/
theorem storeFirst_append {regions : List Mapping} {added : Mapping} {data : Bytes}
    (nonempty : data ≠ [])
    (free : ∀ region ∈ regions, region.overlaps added.base data.length = false)
    (fits : added.bytes.length = data.length) :
    storeFirst added.base data (regions ++ [added]) = some (regions ++ [⟨added.base, data⟩]) := by
  induction regions with
  | nil =>
    have inside : added.covers added.base data.length = true :=
      Mapping.covers_iff.mpr ⟨Nat.le_refl _, Nat.le_of_eq (by rw [Mapping.extent_snd, fits]; rfl)⟩
    have stored : added.store added.base data = ⟨added.base, data⟩ := by
      simp [Mapping.store, Bytes.overlay, fits]
    rw [List.nil_append, storeFirst, if_pos inside, stored]
    rfl
  | cons region regions ih =>
    obtain ⟨freeHere, freeBehind⟩ := List.forall_mem_cons.mp free
    have outside : region.covers added.base data.length ≠ true := by
      intro inside
      obtain ⟨above, below⟩ := Mapping.covers_iff.mp inside
      have some_ := List.length_pos_iff.mpr nonempty
      refine Bool.eq_false_iff.mp freeHere (Mapping.overlaps_iff.mpr ⟨?_, ?_⟩) <;> omega
    rw [List.cons_append, storeFirst, if_neg outside, ih freeBehind]
    rfl

end MappedMemory

end CilCapture.Memory
