import CilCapture.Proofs.Body.Region
import CilCapture.Proofs.Il.Layout

/-!
# Which clauses have regions, and which regions clauses

Along the layout of a stream, a clause has a region exactly when its bounds name instructions
(`Clause.Bounded`), and a region has a clause exactly when its indices do (`Region.Inside`). Either
way leads back: to the clause without what has no meaning, and to the region without inverted
ranges.

Each bound is looked up by a routine of its own, so there is a lemma for the success of each
(`startIndex_isOk_iff`, `endIndex_isOk_iff`), and a clause has a region when all of them succeed.
Sums of offset and length are taken in 32 bits as the code takes them: `Clause.Lands` says so word
for word, and `Clause.lands_iff_bounded` that below 4 GiB it is what one would expect.

What comes back is shown in `Region`; here it is only assembled (`clauses_correspond`).
-/

namespace CilCapture.Body

/-! ## Bounds of a clause -/

/-- The bounds of a clause name instructions of a stream: starts are starts of instructions, ends
are such starts too or the end of the code. -/
structure Clause.Bounded (clause : Clause) (instructions : List Il.Instruction) : Prop where
  filterStart : clause.kind = .filter → clause.classOrFilter.toNat ∈ Il.starts instructions
  tryStart : clause.tryOffset.toNat ∈ Il.starts instructions
  tryEnd : clause.tryOffset.toNat + clause.tryLength.toNat ∈ Il.starts instructions ∨
    clause.tryOffset.toNat + clause.tryLength.toNat = Il.codeSize instructions
  handlerStart : clause.handlerOffset.toNat ∈ Il.starts instructions
  handlerEnd : clause.handlerOffset.toNat + clause.handlerLength.toNat ∈ Il.starts instructions ∨
    clause.handlerOffset.toNat + clause.handlerLength.toNat = Il.codeSize instructions

/-- A range that can be mapped: it reaches to the end of the code, or ends before it and, its end
taken for a word, at an instruction. -/
def RangeLands (start length : UInt32) (instructions : List Il.Instruction) : Prop :=
  start.toNat + length.toNat = Il.codeSize instructions ∨
    start.toNat + length.toNat < Il.codeSize instructions ∧
      (start + length).toNat ∈ Il.starts instructions

/-- The bounds of a clause land on instructions of a stream of any length. In a stream whose places
are words this is that they name instructions (`Clause.lands_iff_bounded`). -/
structure Clause.Lands (clause : Clause) (instructions : List Il.Instruction) : Prop where
  filterStart : clause.kind = .filter → clause.classOrFilter.toNat ∈ Il.starts instructions
  tryStart : clause.tryOffset.toNat ∈ Il.starts instructions
  tryEnd : RangeLands clause.tryOffset clause.tryLength instructions
  handlerStart : clause.handlerOffset.toNat ∈ Il.starts instructions
  handlerEnd : RangeLands clause.handlerOffset clause.handlerLength instructions

/-- Without the end of the code, the boundaries are the starts. -/
theorem dropLast_layout (instructions : List Il.Instruction) :
    (Il.layout instructions).dropLast = Il.starts instructions := by
  rw [Il.layout, List.dropLast_concat]

variable {instructions : List Il.Instruction}

/-- A range starts with an instruction just when an instruction starts there; the end of the code is
a boundary, but no start. -/
theorem startIndex_isOk_iff {start : Nat} :
    (∃ index, startIndex (Il.layout instructions) start = .ok index) ↔
      start ∈ Il.starts instructions := by
  have ascending : (Il.starts instructions).Pairwise (· < ·) :=
    Il.startsFrom_ascending 0 instructions
  rw [List.mem_iff_getElem?]
  apply exists_congr
  intro index
  rw [startIndex, dropLast_layout, ← Il.boundary?_eq_some_iff ascending]
  cases Il.boundary? (Il.starts instructions) start <;> simp

/-- The end of a range is found just when the range lands on a boundary. The sum is the code's own,
in 32 bits. -/
theorem endIndex_isOk_iff {start length : UInt32} :
    (∃ finish, endIndex (Il.layout instructions) start length = .ok finish) ↔
      RangeLands start length instructions := by
  unfold endIndex RangeLands
  rw [layoutSize_layout]
  dsimp only
  split
  next whole => exact iff_of_true ⟨none, rfl⟩ (.inl whole)
  next partly =>
    rw [or_iff_right partly]
    split
    next beyond => exact iff_of_false nofun fun inside => Nat.lt_asymm beyond inside.1
    next reached =>
      have inside : start.toNat + length.toNat < Il.codeSize instructions := by omega
      rw [and_iff_right inside, ← startIndex_isOk_iff]
      constructor
      · rintro ⟨finish, found⟩
        obtain ⟨index, there, -⟩ := map_eq_ok.mp found
        exact ⟨index, there⟩
      · rintro ⟨index, there⟩
        exact ⟨some index, map_eq_ok.mpr ⟨index, there, rfl⟩⟩

/-- Where every place in the code is a word, a range that lands ends at an instruction or at the end
of the code. -/
theorem rangeLands_iff {start length : UInt32} (small : Il.codeSize instructions ≤ 0x100000000) :
    RangeLands start length instructions ↔
      start.toNat + length.toNat ∈ Il.starts instructions ∨
        start.toNat + length.toNat = Il.codeSize instructions := by
  rw [RangeLands, or_comm]
  apply or_congr_left
  constructor
  · rintro ⟨inside, mem⟩
    rwa [UInt32.toNat_add, Nat.mod_eq_of_lt (by omega)] at mem
  · intro mem
    have inside := Il.lt_codeSize_of_mem_starts mem
    refine ⟨inside, ?_⟩
    rwa [UInt32.toNat_add, Nat.mod_eq_of_lt (by omega)]

/-- Only a filter has a second place in the code, and only that one can be missed. -/
theorem handlerOfClause_isOk_iff {clause : Clause} :
    (∃ handler, Region.handlerOfClause clause (Il.layout instructions) = .ok handler) ↔
      (clause.kind = .filter → clause.classOrFilter.toNat ∈ Il.starts instructions) := by
  unfold Region.handlerOfClause
  cases clause.kind with
  | filter =>
    rw [← startIndex_isOk_iff]
    constructor
    · rintro ⟨handler, found⟩ -
      obtain ⟨index, there, -⟩ := map_eq_ok.mp found
      exact ⟨index, there⟩
    · intro found
      obtain ⟨index, there⟩ := found rfl
      exact ⟨.filter index, map_eq_ok.mpr ⟨index, there, rfl⟩⟩
  | finallyHandler => exact iff_of_true ⟨_, rfl⟩ nofun
  | faultHandler => exact iff_of_true ⟨_, rfl⟩ nofun
  | typed => exact iff_of_true ⟨_, rfl⟩ nofun

/-- A clause has a region exactly when its bounds land on instructions. -/
theorem ofClause_isOk_iff_lands {clause : Clause} :
    (∃ region, Region.ofClause clause (Il.layout instructions) = .ok region) ↔
      clause.Lands instructions := by
  constructor
  · rintro ⟨region, made⟩
    obtain ⟨handler, handler_eq, made⟩ := bind_eq_ok.mp made
    obtain ⟨tryStart, tryStart_eq, made⟩ := bind_eq_ok.mp made
    obtain ⟨tryEnd, tryEnd_eq, made⟩ := bind_eq_ok.mp made
    obtain ⟨handlerStart, handlerStart_eq, made⟩ := bind_eq_ok.mp made
    obtain ⟨handlerEnd, handlerEnd_eq, -⟩ := bind_eq_ok.mp made
    exact {
      filterStart := handlerOfClause_isOk_iff.mp ⟨handler, handler_eq⟩
      tryStart := startIndex_isOk_iff.mp ⟨tryStart, tryStart_eq⟩
      tryEnd := endIndex_isOk_iff.mp ⟨tryEnd, tryEnd_eq⟩
      handlerStart := startIndex_isOk_iff.mp ⟨handlerStart, handlerStart_eq⟩
      handlerEnd := endIndex_isOk_iff.mp ⟨handlerEnd, handlerEnd_eq⟩ }
  · intro lands
    obtain ⟨handler, handler_eq⟩ := handlerOfClause_isOk_iff.mpr lands.filterStart
    obtain ⟨tryStart, tryStart_eq⟩ := startIndex_isOk_iff.mpr lands.tryStart
    obtain ⟨tryEnd, tryEnd_eq⟩ := endIndex_isOk_iff.mpr lands.tryEnd
    obtain ⟨handlerStart, handlerStart_eq⟩ := startIndex_isOk_iff.mpr lands.handlerStart
    obtain ⟨handlerEnd, handlerEnd_eq⟩ := endIndex_isOk_iff.mpr lands.handlerEnd
    refine ⟨⟨handler, tryStart, tryEnd, handlerStart, handlerEnd⟩, ?_⟩
    rw [Region.ofClause]
    simp only [handler_eq, tryStart_eq, tryEnd_eq, handlerStart_eq, handlerEnd_eq, bind_ok]
    rfl

/-- In code of at most 4 GiB the sums do not wrap, so that landing on boundaries is being bounded by
instructions. -/
theorem Clause.lands_iff_bounded {clause : Clause}
    (small : Il.codeSize instructions ≤ 0x100000000) :
    clause.Lands instructions ↔ clause.Bounded instructions := by
  constructor
  · intro lands
    exact {
      filterStart := lands.filterStart
      tryStart := lands.tryStart
      tryEnd := (rangeLands_iff small).mp lands.tryEnd
      handlerStart := lands.handlerStart
      handlerEnd := (rangeLands_iff small).mp lands.handlerEnd }
  · intro bounded
    exact {
      filterStart := bounded.filterStart
      tryStart := bounded.tryStart
      tryEnd := (rangeLands_iff small).mpr bounded.tryEnd
      handlerStart := bounded.handlerStart
      handlerEnd := (rangeLands_iff small).mpr bounded.handlerEnd }

/-- A clause has a region exactly when its bounds name instructions. -/
theorem ofClause_isOk_iff {clause : Clause} (small : Il.codeSize instructions < 0x100000000) :
    (∃ region, Region.ofClause clause (Il.layout instructions) = .ok region) ↔
      clause.Bounded instructions :=
  ofClause_isOk_iff_lands.trans (Clause.lands_iff_bounded (Nat.le_of_lt small))

/-! ## Indices of a region -/

/-- The start of a filter block, if that is what the handler is. -/
def Handler.filterStart? : Handler → Option Nat
  | .filter start => some start
  | .typed _ | .finallyHandler | .faultHandler => none

/-- Every index of a region is that of one of `count` instructions. -/
structure Region.Inside (region : Region) (count : Nat) : Prop where
  filterStart : ∀ start ∈ region.handler.filterStart?, start < count
  tryStart : region.tryStart < count
  tryEnd : ∀ finish ∈ region.tryEnd, finish < count
  handlerStart : region.handlerStart < count
  handlerEnd : ∀ finish ∈ region.handlerEnd, finish < count

/-- An index has an offset just when it is the index of an instruction. -/
theorem offsetOf_isOk_iff {index : Nat} :
    (∃ word, offsetOf (Il.layout instructions) index = .ok word) ↔ index < instructions.length := by
  unfold offsetOf
  rw [dropLast_layout, ← Il.length_starts instructions]
  cases there : (Il.starts instructions)[index]? with
  | none => exact iff_of_false nofun (Nat.not_lt.mpr (List.getElem?_eq_none_iff.mp there))
  | some start => exact iff_of_true ⟨_, rfl⟩ (List.getElem?_eq_some_iff.mp there).1

/-- An open end is the end of the code and always has an offset; a closed one has to name an
instruction. -/
theorem endOffset_isOk_iff {finish : Option Nat} :
    (∃ word, endOffset (Il.layout instructions) finish = .ok word) ↔
      ∀ index ∈ finish, index < instructions.length := by
  cases finish with
  | none => exact iff_of_true ⟨_, rfl⟩ nofun
  | some index =>
    rw [endOffset, offsetOf_isOk_iff]
    simp

/-- A handler is written just when its filter, if it has one, starts with an instruction. -/
theorem clauseOfHandler_isOk_iff {handler : Handler} :
    (∃ words, Region.clauseOfHandler (Il.layout instructions) handler = .ok words) ↔
      ∀ start ∈ handler.filterStart?, start < instructions.length := by
  cases handler with
  | filter start =>
    simp only [Handler.filterStart?, Option.mem_some_iff, forall_eq']
    rw [← offsetOf_isOk_iff]
    constructor
    · rintro ⟨words, made⟩
      obtain ⟨word, there, -⟩ := bind_eq_ok.mp made
      exact ⟨word, there⟩
    · rintro ⟨word, there⟩
      exact ⟨(.filter, word), bind_eq_ok.mpr ⟨word, there, rfl⟩⟩
  | typed class_ => exact iff_of_true ⟨_, rfl⟩ nofun
  | finallyHandler => exact iff_of_true ⟨_, rfl⟩ nofun
  | faultHandler => exact iff_of_true ⟨_, rfl⟩ nofun

/-- A region has a clause exactly when its indices name instructions. -/
theorem toClause_isOk_iff {region : Region} :
    (∃ clause, region.toClause (Il.layout instructions) = .ok clause) ↔
      region.Inside instructions.length := by
  constructor
  · rintro ⟨clause, made⟩
    obtain ⟨words, words_eq, made⟩ := bind_eq_ok.mp made
    obtain ⟨tryOffset, tryStart_eq, made⟩ := bind_eq_ok.mp made
    obtain ⟨handlerOffset, handlerStart_eq, made⟩ := bind_eq_ok.mp made
    obtain ⟨tryFinish, tryEnd_eq, made⟩ := bind_eq_ok.mp made
    obtain ⟨handlerFinish, handlerEnd_eq, -⟩ := bind_eq_ok.mp made
    exact {
      filterStart := clauseOfHandler_isOk_iff.mp ⟨words, words_eq⟩
      tryStart := offsetOf_isOk_iff.mp ⟨tryOffset, tryStart_eq⟩
      tryEnd := endOffset_isOk_iff.mp ⟨tryFinish, tryEnd_eq⟩
      handlerStart := offsetOf_isOk_iff.mp ⟨handlerOffset, handlerStart_eq⟩
      handlerEnd := endOffset_isOk_iff.mp ⟨handlerFinish, handlerEnd_eq⟩ }
  · intro inside
    obtain ⟨⟨kind, word⟩, words_eq⟩ := clauseOfHandler_isOk_iff.mpr inside.filterStart
    obtain ⟨tryOffset, tryStart_eq⟩ := offsetOf_isOk_iff.mpr inside.tryStart
    obtain ⟨handlerOffset, handlerStart_eq⟩ := offsetOf_isOk_iff.mpr inside.handlerStart
    obtain ⟨tryFinish, tryEnd_eq⟩ := endOffset_isOk_iff.mpr inside.tryEnd
    obtain ⟨handlerFinish, handlerEnd_eq⟩ := endOffset_isOk_iff.mpr inside.handlerEnd
    refine ⟨⟨kind.flags, tryOffset, extent tryOffset tryFinish, handlerOffset,
      extent handlerOffset handlerFinish, word⟩, ?_⟩
    rw [Region.toClause]
    simp only [words_eq, tryStart_eq, tryEnd_eq, handlerStart_eq, handlerEnd_eq, bind_ok]
    rfl

/-! ## The correspondence -/

/-- In a stream whose offsets fit words, clauses with bounds that name instructions and regions with
indices that do correspond: a clause comes back with the flag of its kind alone and without a last
word that has no meaning, a region with its inverted ranges empty, so as it was if it has none. -/
theorem clauses_correspond (small : Il.codeSize instructions < 0x100000000) :
    (∀ clause : Clause,
      ((∃ region, Region.ofClause clause (Il.layout instructions) = .ok region) ↔
        clause.Bounded instructions) ∧
      ∀ region, Region.ofClause clause (Il.layout instructions) = .ok region →
        region.toClause (Il.layout instructions) = .ok clause.normalise) ∧
    ∀ region : Region,
      ((∃ clause, region.toClause (Il.layout instructions) = .ok clause) ↔
        region.Inside instructions.length) ∧
      ∀ clause, region.toClause (Il.layout instructions) = .ok clause →
        Region.ofClause clause (Il.layout instructions) = .ok region.straighten ∧
        (Region.ofClause clause (Il.layout instructions) = .ok region ↔ region.Ordered) := by
  have small' : layoutSize (Il.layout instructions) < 0x100000000 := by
    rwa [layoutSize_layout]
  constructor
  · intro clause
    exact ⟨ofClause_isOk_iff small, fun region made => toClause_of_ofClause small' made⟩
  · intro region
    refine ⟨toClause_isOk_iff, ?_⟩
    intro clause made
    have back := ofClause_of_toClause (Il.layout_ascending instructions) small' made
    refine ⟨back, ?_⟩
    rw [back, Except.ok.injEq, Region.straighten_eq_self_iff]

/-- A branch over a two-byte instruction. -/
def skipping : List Il.Instruction := [
  ⟨⟨0x2B, "br.s", .shortBranch⟩, 0, .target 2⟩,
  ⟨⟨0xFE01, "ceq", .none⟩, 2, .none⟩,
  ⟨⟨0x2A, "ret", .none⟩, 4, .none⟩]

/-- A clause with spare flags comes back as its kind has it, and a region that ends before it starts
comes back empty. -/
theorem clauses_correspond_inverted :
    Il.codeSize skipping < 0x100000000 ∧
      Clause.Bounded ⟨0x1B, 0, 5, 2, 2, 4⟩ skipping ∧
      (∃ region, Region.ofClause ⟨0x1B, 0, 5, 2, 2, 4⟩ (Il.layout skipping) = .ok region ∧
        region.toClause (Il.layout skipping) = .ok ⟨1, 0, 5, 2, 2, 4⟩) ∧
      ∃ clause, Region.toClause ⟨.finallyHandler, 2, some 1, 0, some 2⟩ (Il.layout skipping) =
          .ok clause ∧
        Region.ofClause clause (Il.layout skipping) =
          .ok ⟨.finallyHandler, 2, some 2, 0, some 2⟩ := by
  have small : Il.codeSize skipping < 0x100000000 := by decide
  obtain ⟨clauses, regions⟩ := clauses_correspond small
  obtain ⟨region, made⟩ :
      ∃ region, Region.ofClause ⟨0x1B, 0, 5, 2, 2, 4⟩ (Il.layout skipping) = .ok region :=
    ⟨_, rfl⟩
  obtain ⟨bounded, back⟩ := clauses ⟨0x1B, 0, 5, 2, 2, 4⟩
  obtain ⟨clause, written⟩ :
      ∃ clause, Region.toClause ⟨.finallyHandler, 2, some 1, 0, some 2⟩ (Il.layout skipping) =
        .ok clause :=
    ⟨_, rfl⟩
  obtain ⟨-, again⟩ := regions ⟨.finallyHandler, 2, some 1, 0, some 2⟩
  exact ⟨small, bounded.mp ⟨region, made⟩, ⟨region, made, back region made⟩, clause, written,
    (again clause written).1⟩

end CilCapture.Body
