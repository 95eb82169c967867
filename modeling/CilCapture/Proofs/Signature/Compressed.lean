import CilCapture.Proofs.Signature.Grammar
import CilCapture.Signature.Compressed

/-!
# Spelling numbers

A number has at most one spelling of each length, and `compress` writes the shortest
(`isShortest_iff`). So a spelling that is read and written again comes back unless it was longer
than it had to be.

A spelling of each length has its own range of leading bits, so the length tells the constructor of
`Spells` and with it the bytes. Shortest spellings are then a matter of bounds (`leastLength`).
-/

namespace CilCapture.Signature

/-- A spelling of a number that is no longer than any other. -/
def IsShortest (value : Nat) (bytes : Bytes) : Prop :=
  Spells value bytes ∧ ∀ other, Spells value other → bytes.length ≤ other.length

/-- What is written of a number is one of its spellings. -/
theorem spells_of_compress {value : Nat} {bytes : Bytes} (written : compress value = .ok bytes) :
    Spells value bytes := by
  have of_eq {spelled : Nat} {bytes : Bytes} (spells : Spells spelled bytes)
      (same : spelled = value) : Spells value bytes := same ▸ spells
  have low (number : Nat) : (UInt8.ofNat number).toNat = number % 256 := UInt8.toNat_ofNat'
  unfold compress at written
  split at written
  next small =>
    cases written
    refine of_eq (.one ?_) ?_ <;> simp only [low] <;> omega
  next =>
    split at written
    next small =>
      cases written
      refine of_eq (.two ?_) ?_ <;> simp only [low] <;> omega
    next =>
      split at written
      next small =>
        unfold greatest at small
        cases written
        refine of_eq (.four ?_) ?_ <;> simp only [low] <;> omega
      next => cases written

/-- No spelling goes beyond the greatest number. -/
theorem Spells.le_greatest {value : Nat} {bytes : Bytes} (spells : Spells value bytes) :
    value ≤ greatest := by
  unfold greatest
  cases spells with
  | one low => omega
  | @two lead last bits =>
    have := last.toNat_lt
    omega
  | @four lead second third last bits =>
    have := second.toNat_lt
    have := third.toNat_lt
    have := last.toNat_lt
    omega

/-- Of each length there is one spelling of a number at most. -/
theorem Spells.eq_of_length_eq {value : Nat} {bytes other : Bytes} (spells : Spells value bytes)
    (spells' : Spells value other) (same : bytes.length = other.length) : bytes = other := by
  rw [spells_iff] at spells spells'
  rcases spells with ⟨a, low, rfl, rfl⟩ | ⟨a, b, bits, rfl, rfl⟩ | ⟨a, b, c, d, bits, rfl, rfl⟩ <;>
    rcases spells' with ⟨a', low', value_eq, rfl⟩ | ⟨a', b', bits', value_eq, rfl⟩ |
      ⟨a', b', c', d', bits', value_eq, rfl⟩ <;> cases same
  · rw [UInt8.toNat_inj.mp value_eq]
  · have := b.toNat_lt
    have := b'.toNat_lt
    have a_eq : a = a' := UInt8.toNat_inj.mp (by omega)
    have b_eq : b = b' := UInt8.toNat_inj.mp (by omega)
    rw [a_eq, b_eq]
  · have := b.toNat_lt
    have := b'.toNat_lt
    have := c.toNat_lt
    have := c'.toNat_lt
    have := d.toNat_lt
    have := d'.toNat_lt
    have a_eq : a = a' := UInt8.toNat_inj.mp (by omega)
    have b_eq : b = b' := UInt8.toNat_inj.mp (by omega)
    have c_eq : c = c' := UInt8.toNat_inj.mp (by omega)
    have d_eq : d = d' := UInt8.toNat_inj.mp (by omega)
    rw [a_eq, b_eq, c_eq, d_eq]

/-- Every number up to the greatest one is written. -/
theorem exists_compress {value : Nat} (small : value ≤ greatest) :
    ∃ bytes, compress value = .ok bytes := by
  unfold compress
  split
  next => exact ⟨_, rfl⟩
  next =>
    split
    next => exact ⟨_, rfl⟩
    next => exact ⟨_, rfl⟩

/-- Bytes that a number cannot be spelled without. -/
def leastLength (value : Nat) : Nat := if value < 0x80 then 1 else if value < 0x4000 then 2 else 4

/-- A number is written with no more bytes than it needs. -/
theorem length_of_compress {value : Nat} {bytes : Bytes} (written : compress value = .ok bytes) :
    bytes.length = leastLength value := by
  unfold compress at written
  unfold leastLength
  split at written
  next low =>
    cases written
    rw [if_pos low]
    rfl
  next high =>
    rw [if_neg high]
    split at written
    next low =>
      cases written
      rw [if_pos low]
      rfl
    next high =>
      rw [if_neg high]
      split at written <;> cases written
      rfl

/-- No spelling does with less. -/
theorem Spells.leastLength_le {value : Nat} {bytes : Bytes} (spells : Spells value bytes) :
    leastLength value ≤ bytes.length := by
  unfold leastLength
  cases spells with
  | one low =>
    rw [if_pos low]
    exact Nat.le_refl 1
  | @two lead last bits =>
    have := last.toNat_lt
    have low : lead.toNat % 0x40 * 256 + last.toNat < 0x4000 := by omega
    rw [if_pos low, List.length_cons, List.length_singleton]
    split <;> omega
  | four bits =>
    simp only [List.length_cons, List.length_nil]
    repeat' split
    all_goals omega

/-- What is written of a number is its shortest spelling. -/
theorem isShortest_iff {value : Nat} {bytes : Bytes} :
    IsShortest value bytes ↔ compress value = .ok bytes := by
  constructor
  · rintro ⟨spells, least⟩
    obtain ⟨other, written⟩ := exists_compress spells.le_greatest
    have spells' := spells_of_compress written
    have same : bytes.length = other.length := by
      refine Nat.le_antisymm (least other spells') ?_
      rw [length_of_compress written]
      exact spells.leastLength_le
    rw [spells.eq_of_length_eq spells' same, written]
  · intro written
    refine ⟨spells_of_compress written, fun other spells => ?_⟩
    rw [length_of_compress written]
    exact spells.leastLength_le

end CilCapture.Signature
