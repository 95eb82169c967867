import Mathlib.Tactic.MkIffOfInductiveProp
import CilCapture.Body.Region
import CilCapture.Proofs.Outcome

/-!
# Regions and their clauses

Mapping the bounds of a clause to instructions and back loses nothing but what has no meaning: the
flags besides the clause's kind, and the last word of a clause without class and filter. What is
left is `Clause.normalise`, and `toClause_of_ofClause` says that it comes back.

The other way round, a length cannot be negative, so a range that ends before it starts comes back
empty (`ofClause_of_toClause`). Without such ranges the region is `Region.Ordered` and comes back as
it was.

Bounds are looked up in the layout, which ascends, so each of them has at most one index and the way
back is a lookup by that index (`offsetOf_of_startIndex`). The last boundary of a layout is its size
and no start: a range that ends there has no end index, and is read again as one that lasts to the
end.
-/

namespace CilCapture.Body

/-- The last boundary of a layout is the size of the code. -/
theorem layoutSize_layout (instructions : List Il.Instruction) :
    layoutSize (Il.layout instructions) = Il.codeSize instructions := by
  rw [layoutSize, Il.layout, List.getLast?_concat]
  rfl

/-- The flags of a kind are read as that kind. -/
theorem Clause.kind_of_flags {clause : Clause} {kind : ClauseKind}
    (flags_eq : clause.flags = kind.flags) : clause.kind = kind := by
  rw [Clause.kind, flags_eq]
  cases kind <;> decide

/-! ## From clauses to regions and back -/

/-- The clause with nothing but what its kind gives a meaning to. -/
def Clause.normalise (clause : Clause) : Clause :=
  { clause with
    flags := clause.kind.flags
    classOrFilter :=
      match clause.kind with
      | .filter | .typed => clause.classOrFilter
      | .finallyHandler | .faultHandler => 0 }

/-- The handler of a clause depends on what its kind gives a meaning to. -/
theorem handlerOfClause_normalise (clause : Clause) (offsets : List Nat) :
    Region.handlerOfClause clause.normalise offsets = Region.handlerOfClause clause offsets := by
  have kind_eq : clause.normalise.kind = clause.kind := Clause.kind_of_flags rfl
  rw [Region.handlerOfClause, Region.handlerOfClause, kind_eq, Clause.normalise]
  cases kind : clause.kind <;> rfl

/-- What normalising takes away has no part in the region. -/
theorem ofClause_normalise (clause : Clause) (offsets : List Nat) :
    Region.ofClause clause.normalise offsets = Region.ofClause clause offsets := by
  rw [Region.ofClause, handlerOfClause_normalise]
  rfl

/-- The regions of a body are the same before and after normalising its clauses. -/
theorem mapM_ofClause_normalise (clauses : List Clause) (offsets : List Nat) :
    (clauses.map Clause.normalise).mapM (fun clause => Region.ofClause clause offsets) =
      clauses.mapM (fun clause => Region.ofClause clause offsets) := by
  simp only [List.mapM_map, Function.comp_def, ofClause_normalise]

/-- An index that was found for an offset leads back to the offset. -/
theorem offsetOf_of_startIndex {offsets : List Nat} {word : UInt32} {index : Nat}
    (found : startIndex offsets word.toNat = .ok index) : offsetOf offsets index = .ok word := by
  unfold startIndex at found
  split at found
  next place boundary =>
    cases found
    rw [offsetOf, Il.getElem?_of_boundary? boundary]
    exact congrArg Except.ok UInt32.ofNat_toNat
  next => cases found

/-- The extent of a range is its length where the end does not wrap. -/
theorem extent_add {start length : UInt32} (fits : start.toNat + length.toNat < 0x100000000) :
    extent start (start + length) = length := by
  have sum_eq : (start + length).toNat = start.toNat + length.toNat := by
    rw [UInt32.toNat_add]
    omega
  have ordered : ¬ start + length < start := by
    rw [UInt32.lt_iff_toNat_lt]
    omega
  rw [extent, if_neg ordered, UInt32.add_comm, UInt32.add_sub_cancel]

/-- An end that was found for a range leads back to its length. In code below 4 GiB the sum that the
search compares cannot have wrapped. -/
theorem endOffset_of_endIndex {offsets : List Nat} {start length : UInt32} {finish : Option Nat}
    (small : layoutSize offsets < 0x100000000)
    (found : endIndex offsets start length = .ok finish) :
    ∃ word, endOffset offsets finish = .ok word ∧ extent start word = length := by
  unfold endIndex at found
  dsimp only at found
  split at found
  next whole =>
    cases found
    refine ⟨start + length, ?_, extent_add (by omega)⟩
    rw [endOffset, ← whole, UInt32.ofNat_add, UInt32.ofNat_toNat, UInt32.ofNat_toNat]
  next =>
    split at found
    next => cases found
    next inside =>
      obtain ⟨index, there, rfl⟩ := map_eq_ok.mp found
      exact ⟨start + length, offsetOf_of_startIndex there, extent_add (by omega)⟩

/-- A handler that was made of a clause is written as the clause's kind and what that kind gives a
meaning to. -/
theorem clauseOfHandler_of_handlerOfClause {clause : Clause} {offsets : List Nat}
    {handler : Handler} (made : Region.handlerOfClause clause offsets = .ok handler) :
    Region.clauseOfHandler offsets handler =
      .ok (clause.kind, clause.normalise.classOrFilter) := by
  unfold Region.handlerOfClause at made
  rw [Clause.normalise]
  cases kind : clause.kind <;> rw [kind] at made
  case filter =>
    obtain ⟨index, there, rfl⟩ := map_eq_ok.mp made
    rw [Region.clauseOfHandler, offsetOf_of_startIndex there]
    rfl
  all_goals
    cases made
    rfl

/-- The region of a clause gives the clause back, normalised. -/
theorem toClause_of_ofClause {clause : Clause} {offsets : List Nat} {region : Region}
    (small : layoutSize offsets < 0x100000000)
    (made : Region.ofClause clause offsets = .ok region) :
    region.toClause offsets = .ok clause.normalise := by
  unfold Region.ofClause at made
  obtain ⟨handler, handler_eq, made⟩ := bind_eq_ok.mp made
  obtain ⟨tryStart, tryStart_eq, made⟩ := bind_eq_ok.mp made
  obtain ⟨tryEnd, tryEnd_eq, made⟩ := bind_eq_ok.mp made
  obtain ⟨handlerStart, handlerStart_eq, made⟩ := bind_eq_ok.mp made
  obtain ⟨handlerEnd, handlerEnd_eq, made⟩ := bind_eq_ok.mp made
  cases made
  obtain ⟨tryFinish, tryFinish_eq, tryLength_eq⟩ := endOffset_of_endIndex small tryEnd_eq
  obtain ⟨handlerFinish, handlerFinish_eq, handlerLength_eq⟩ :=
    endOffset_of_endIndex small handlerEnd_eq
  simp only [Region.toClause, clauseOfHandler_of_handlerOfClause handler_eq,
    offsetOf_of_startIndex tryStart_eq, offsetOf_of_startIndex handlerStart_eq, tryFinish_eq,
    handlerFinish_eq, bind_ok, tryLength_eq, handlerLength_eq]
  rfl

/-- Clauses of a body that were made into regions come back normalised, in their order. -/
theorem mapM_toClause_of_mapM_ofClause {clauses : List Clause} {offsets : List Nat}
    {regions : List Region} (small : layoutSize offsets < 0x100000000)
    (made : clauses.mapM (fun clause => Region.ofClause clause offsets) = .ok regions) :
    regions.mapM (fun region => region.toClause offsets) = .ok (clauses.map Clause.normalise) := by
  rw [mapM_eq_ok_iff, List.forall₂_map_right_iff]
  exact ((mapM_eq_ok_iff.mp made).imp fun _ _ one => toClause_of_ofClause small one).flip

/-! ## From regions to clauses and back -/

/-- A region whose ranges do not end before they start. -/
@[mk_iff] structure Region.Ordered (region : Region) : Prop where
  tryEnd : ∀ finish ∈ region.tryEnd, region.tryStart ≤ finish
  handlerEnd : ∀ finish ∈ region.handlerEnd, region.handlerStart ≤ finish

instance (region : Region) : Decidable region.Ordered :=
  decidable_of_iff _ (Region.ordered_iff region).symm

/-- The region with its inverted ranges empty: an end before its start is moved there. -/
def Region.straighten (region : Region) : Region :=
  { region with
    tryEnd := region.tryEnd.map (max region.tryStart)
    handlerEnd := region.handlerEnd.map (max region.handlerStart) }

/-- An end is left alone by straightening just when it does not stand before the start. -/
theorem map_max_eq_self_iff {first : Nat} {finish : Option Nat} :
    finish.map (max first) = finish ↔ ∀ last ∈ finish, first ≤ last := by
  cases finish with
  | none => simp
  | some last =>
    simp only [Option.map_some, Option.some.injEq, Option.mem_def, forall_eq']
    omega

/-- The ordered regions are the ones that straightening leaves alone. -/
theorem Region.straighten_eq_self_iff {region : Region} :
    region.straighten = region ↔ region.Ordered := by
  rw [Region.ordered_iff, ← map_max_eq_self_iff, ← map_max_eq_self_iff]
  constructor
  · intro same
    exact ⟨congrArg Region.tryEnd same, congrArg Region.handlerEnd same⟩
  · rintro ⟨tryEnd, handlerEnd⟩
    rw [straighten, tryEnd, handlerEnd]

section

variable {offsets : List Nat}

/-- Every start lies before the last boundary. -/
theorem lt_layoutSize (ascending : offsets.Pairwise (· < ·)) {start : Nat}
    (mem : start ∈ offsets.dropLast) : start < layoutSize offsets := by
  rcases List.eq_nil_or_concat' offsets with rfl | ⟨starts, size, rfl⟩
  · cases mem
  · rw [List.dropLast_concat] at mem
    rw [layoutSize, List.getLast?_concat]
    exact (List.pairwise_append.mp ascending).2.2 start mem size List.mem_cons_self

/-- An offset that is found is a start of the layout, in full. -/
theorem offsetOf_eq_ok (ascending : offsets.Pairwise (· < ·))
    (small : layoutSize offsets < 0x100000000) {index : Nat} {word : UInt32}
    (found : offsetOf offsets index = .ok word) : offsets.dropLast[index]? = some word.toNat := by
  unfold offsetOf at found
  split at found
  next start there =>
    cases found
    have inside := lt_layoutSize ascending (List.mem_of_getElem? there)
    rw [there, UInt32.toNat_ofNat', Nat.mod_eq_of_lt (by omega)]
  next => cases found

/-- The search for a start finds the index that it stands under. -/
theorem startIndex_eq_ok (ascending : offsets.Pairwise (· < ·)) {start index : Nat}
    (there : offsets.dropLast[index]? = some start) : startIndex offsets start = .ok index := by
  have starts_ascending := ascending.sublist offsets.dropLast_sublist
  rw [startIndex, (Il.boundary?_eq_some_iff starts_ascending start index).mpr there]

/-- A start and the extent up to an end in order come to the end. -/
theorem add_extent {start finish : UInt32} (ordered : start.toNat ≤ finish.toNat) :
    start.toNat + (extent start finish).toNat = finish.toNat := by
  have not_inverted : ¬ finish < start := by
    rw [UInt32.lt_iff_toNat_lt]
    omega
  rw [extent, if_neg not_inverted, UInt32.toNat_sub_of_le _ _ (UInt32.le_iff_toNat_le.mpr ordered)]
  omega

/-- Indices in order have offsets in order. -/
theorem start_le_of_le (ascending : offsets.Pairwise (· < ·)) {first last start finish : Nat}
    (starts : offsets.dropLast[first]? = some start) (ends : offsets.dropLast[last]? = some finish)
    (ordered : first ≤ last) : start ≤ finish := by
  rcases Nat.eq_or_lt_of_le ordered with rfl | before
  · exact Nat.le_of_eq (Option.some.inj (starts.symm.trans ends))
  · obtain ⟨first_lt, rfl⟩ := List.getElem?_eq_some_iff.mp starts
    obtain ⟨last_lt, rfl⟩ := List.getElem?_eq_some_iff.mp ends
    have starts_ascending := ascending.sublist offsets.dropLast_sublist
    exact Nat.le_of_lt
      (List.pairwise_iff_getElem.mp starts_ascending first last first_lt last_lt before)

/-- A range that ends at an instruction is mapped to that instruction. -/
theorem endIndex_of_start (ascending : offsets.Pairwise (· < ·)) {last : Nat}
    {start length : UInt32} (ends : offsets.dropLast[last]? = some (start.toNat + length.toNat))
    (small : layoutSize offsets < 0x100000000) :
    endIndex offsets start length = .ok (some last) := by
  have inside := lt_layoutSize ascending (List.mem_of_getElem? ends)
  have sum_eq : (start + length).toNat = start.toNat + length.toNat := by
    rw [UInt32.toNat_add]
    omega
  rw [endIndex, if_neg (by omega), if_neg (by omega), sum_eq, startIndex_eq_ok ascending ends]
  rfl

/-- The length to an end leads back to the end, or to the start if the end lies before it. -/
theorem endIndex_of_endOffset (ascending : offsets.Pairwise (· < ·))
    (small : layoutSize offsets < 0x100000000) {first : Nat} {start word : UInt32}
    {finish : Option Nat} (starts : offsets.dropLast[first]? = some start.toNat)
    (ends : endOffset offsets finish = .ok word) :
    endIndex offsets start (extent start word) = .ok (finish.map (max first)) := by
  have start_lt := lt_layoutSize ascending (List.mem_of_getElem? starts)
  cases finish with
  | none =>
    cases ends
    have size_eq : (UInt32.ofNat (layoutSize offsets)).toNat = layoutSize offsets := by
      rw [UInt32.toNat_ofNat', Nat.mod_eq_of_lt small]
    rw [endIndex, add_extent (by omega), if_pos size_eq]
    rfl
  | some last =>
    have there := offsetOf_eq_ok ascending small ends
    rw [Option.map_some]
    rcases Nat.le_total first last with ordered | inverted
    · have sum_eq := add_extent (start_le_of_le ascending starts there ordered)
      rw [Nat.max_eq_right ordered]
      exact endIndex_of_start ascending (sum_eq ▸ there) small
    · -- the end may also be the start, where the two cases agree
      have none_left : extent start word = 0 := by
        unfold extent
        split
        next => rfl
        next not_before =>
          have after := UInt32.le_iff_toNat_le.mp (UInt32.not_lt.mp not_before)
          have before := start_le_of_le ascending there starts inverted
          rw [UInt32.toNat_inj.mp (Nat.le_antisymm after before), UInt32.sub_self]
      rw [Nat.max_eq_left inverted, none_left]
      exact endIndex_of_start ascending starts small

/-- A handler that was written is read back from the kind and the word it was written as. -/
theorem handlerOfClause_of_clauseOfHandler (ascending : offsets.Pairwise (· < ·))
    (small : layoutSize offsets < 0x100000000) {handler : Handler} {clause : Clause}
    {kind : ClauseKind} (flags_eq : clause.flags = kind.flags)
    (made : Region.clauseOfHandler offsets handler = .ok (kind, clause.classOrFilter)) :
    Region.handlerOfClause clause offsets = .ok handler := by
  have kind_eq := Clause.kind_of_flags flags_eq
  cases handler with
  | filter start =>
    obtain ⟨word, there, same⟩ := bind_eq_ok.mp made
    obtain ⟨rfl, rfl⟩ := Prod.mk.inj (Except.ok.inj same)
    have found := startIndex_eq_ok ascending (offsetOf_eq_ok ascending small there)
    rw [Region.handlerOfClause, kind_eq]
    simp only [found]
    rfl
  | typed class_ =>
    obtain ⟨rfl, class_eq⟩ := Prod.mk.inj (Except.ok.inj made)
    rw [Region.handlerOfClause, kind_eq, ← class_eq]
  | finallyHandler =>
    obtain ⟨rfl, -⟩ := Prod.mk.inj (Except.ok.inj made)
    rw [Region.handlerOfClause, kind_eq]
  | faultHandler =>
    obtain ⟨rfl, -⟩ := Prod.mk.inj (Except.ok.inj made)
    rw [Region.handlerOfClause, kind_eq]

/-- The clause of a region gives the region back, but for ranges that are inverted: a length cannot
be negative, so these come back empty. -/
theorem ofClause_of_toClause (ascending : offsets.Pairwise (· < ·))
    (small : layoutSize offsets < 0x100000000) {region : Region} {clause : Clause}
    (made : region.toClause offsets = .ok clause) :
    Region.ofClause clause offsets = .ok region.straighten := by
  unfold Region.toClause at made
  obtain ⟨⟨kind, word⟩, handler_eq, made⟩ := bind_eq_ok.mp made
  obtain ⟨tryOffset, tryStart_eq, made⟩ := bind_eq_ok.mp made
  obtain ⟨handlerOffset, handlerStart_eq, made⟩ := bind_eq_ok.mp made
  obtain ⟨tryFinish, tryEnd_eq, made⟩ := bind_eq_ok.mp made
  obtain ⟨handlerFinish, handlerEnd_eq, made⟩ := bind_eq_ok.mp made
  cases made
  have tryStart := offsetOf_eq_ok ascending small tryStart_eq
  have handlerStart := offsetOf_eq_ok ascending small handlerStart_eq
  rw [Region.ofClause, handlerOfClause_of_clauseOfHandler ascending small rfl handler_eq]
  simp only [startIndex_eq_ok ascending tryStart, startIndex_eq_ok ascending handlerStart,
    endIndex_of_endOffset ascending small tryStart tryEnd_eq,
    endIndex_of_endOffset ascending small handlerStart handlerEnd_eq, bind_ok]
  rfl

end

end CilCapture.Body
