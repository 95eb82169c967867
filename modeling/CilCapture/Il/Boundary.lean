/-!
# Instruction boundaries

Which instruction starts at a byte offset. `boundary?` finds it by halving a list of starts; the
list may be any list, and a start that is out of order may be missed. In an ascending list none is
(`boundary?_eq_some_iff`).
-/

namespace CilCapture.Il

/-- The place where halving ends: of the `size` places from `base` on, the part behind the middle is
kept if the middle does not exceed `offset`, the part before it otherwise. As many rounds as places
are enough. -/
def halve (starts : List Nat) (offset : Nat) : (rounds base size : Nat) → Nat
  | 0, base, _ => base
  | rounds + 1, base, size =>
    if size ≤ 1 then base
    else
      let middle := base + size / 2
      let base := if starts[middle]?.getD 0 ≤ offset then middle else base
      halve starts offset rounds base (size - size / 2)

/-- The place of an offset among the starts. -/
def boundary? (starts : List Nat) (offset : Nat) : Option Nat :=
  let place := halve starts offset starts.length 0 starts.length
  if starts[place]? = some offset then some place else none

/-- Halving an ascending list keeps the place of a number that is in it. -/
theorem halve_eq {starts : List Nat} (ascending : starts.Pairwise (· < ·)) {offset place : Nat}
    (found : starts[place]? = some offset) (rounds base size : Nat) (lower : base ≤ place)
    (upper : place < base + size) (fits : base + size ≤ starts.length)
    (enough : size ≤ rounds + 1) : halve starts offset rounds base size = place := by
  induction rounds generalizing base size with
  | zero => simp only [halve]; omega
  | succ rounds ih =>
    simp only [halve]
    split
    · omega
    · have middle_lt : base + size / 2 < starts.length := by omega
      have place_lt : place < starts.length := by omega
      rw [List.getElem?_eq_getElem place_lt] at found
      have found := Option.some.inj found
      simp only [List.getElem?_eq_getElem middle_lt, Option.getD_some]
      rw [List.pairwise_iff_getElem] at ascending
      split
      · refine ih _ _ ?_ (by omega) (by omega) (by omega)
        refine Nat.le_of_not_lt fun beyond => ?_
        have := ascending place (base + size / 2) place_lt middle_lt beyond
        omega
      · rename_i above
        refine ih _ _ lower ?_ (by omega) (by omega)
        refine Nat.lt_of_not_le fun behind => above ?_
        rcases Nat.lt_or_eq_of_le (show base + size / 2 ≤ place by omega) with before | same
        · have := ascending (base + size / 2) place middle_lt place_lt before
          omega
        · simp [same, found]

/-- A place that is found holds the offset. -/
theorem getElem?_of_boundary? {starts : List Nat} {offset place : Nat}
    (found : boundary? starts offset = some place) : starts[place]? = some offset := by
  simp only [boundary?] at found
  split at found
  · rename_i holds
    rwa [← Option.some.inj found]
  · contradiction

/-- In an ascending list, what is found is what is there. -/
theorem boundary?_eq_some_iff {starts : List Nat} (ascending : starts.Pairwise (· < ·))
    (offset place : Nat) : boundary? starts offset = some place ↔ starts[place]? = some offset := by
  refine ⟨getElem?_of_boundary?, fun found => ?_⟩
  have place_lt : place < starts.length := (List.getElem?_eq_some_iff.mp found).1
  have ends : halve starts offset starts.length 0 starts.length = place :=
    halve_eq ascending found _ 0 _ (Nat.zero_le _) (by omega) (by omega) (by omega)
  simp [boundary?, ends, found]

end CilCapture.Il
