import CilCapture.Proofs.Signature.Agreement
import CilCapture.Proofs.Signature.Compressed

/-!
# Compressed integers written and read back

A word is written from its bits, and two readers put it together again, one from bits and one by
arithmetic. All three go by the same spellings: what is written is the shortest spelling
(`appendCompressed_eq`), and what is read is whatever is spelled. So integers come back from a
buffer, and nothing else that reads as the same integer is shorter (`compressed_lossless`). Since
the first byte of a spelling tells its length, no spelling continues another
(`Spells.eq_of_prefix`).

The bits of a word are brought to arithmetic once, in `Agreement` for reading and by
`toUInt8_shiftRight` for writing; everything else is about numbers. A word that has no spelling is
refused and the buffer is left as it was.
-/

namespace CilCapture.Signature

/-! ## Writing -/

/-- A byte of a word from a place on. -/
theorem toUInt8_shiftRight (value : UInt32) {places : UInt32} {unit : Nat}
    (few : places.toNat < 32) (unit_eq : 1 <<< places.toNat = unit) :
    (value >>> places).toUInt8 = UInt8.ofNat (value.toNat / unit) := by
  apply UInt8.toNat_inj.mp
  rw [UInt8.toNat_ofNat', UInt32.toNat_toUInt8, UInt32.toNat_shiftRight, Nat.mod_eq_of_lt few,
    Nat.shiftRight_eq_div_pow, ← Nat.one_shiftLeft, unit_eq]

/-- The lead of a spelling: the mark of its length class beside the highest bits of the value. -/
theorem mark_or (width unit : Nat) {mark : UInt8} {high : Nat} (unit_eq : 1 <<< width = unit)
    (aligned : unit ∣ mark.toNat) (small : high < unit) (fits : unit ≤ 0x100) :
    mark ||| UInt8.ofNat high = UInt8.ofNat (mark.toNat + high) := by
  apply UInt8.toNat_inj.mp
  have high_eq : (UInt8.ofNat high).toNat = high := by
    rw [UInt8.toNat_ofNat']
    omega
  have both := UInt8.toNat_lt (mark ||| UInt8.ofNat high)
  rw [UInt8.toNat_or, high_eq, or_eq_add width unit unit_eq aligned small] at both
  rw [UInt8.toNat_or, high_eq, or_eq_add width unit unit_eq aligned small, UInt8.toNat_ofNat',
    Nat.mod_eq_of_lt both]

/-- From its bits a word is written as the number that it is. -/
theorem appendCompressed_eq (value : UInt32) (out : Bytes) :
    appendCompressed value out =
      match compress value.toNat with
      | .ok spelled => .ok () (out ++ spelled)
      | .error fault => .error fault out := by
  have low : value.toUInt8 = UInt8.ofNat value.toNat := rfl
  have second : (value >>> 8).toUInt8 = UInt8.ofNat (value.toNat / 256) :=
    toUInt8_shiftRight value (by decide) rfl
  have third : (value >>> 16).toUInt8 = UInt8.ofNat (value.toNat / 256 / 256) := by
    rw [Nat.div_div_eq_div_mul]
    exact toUInt8_shiftRight value (by decide) rfl
  have fourth : (value >>> 24).toUInt8 = UInt8.ofNat (value.toNat / 256 / 256 / 256) := by
    rw [Nat.div_div_eq_div_mul, Nat.div_div_eq_div_mul]
    exact toUInt8_shiftRight value (by decide) rfl
  unfold appendCompressed compress greatest
  rw [low, second, third, fourth]
  simp only [UInt32.le_iff_toNat_le, UInt32.reduceToNat, ← Nat.lt_succ_iff (n := 0x7F),
    ← Nat.lt_succ_iff (n := 0x3FFF)]
  split
  next => rfl
  next =>
    split
    next small =>
      rw [mark_or 7 0x80 rfl (by decide) (by omega) (by decide)]
      rfl
    next =>
      split
      next small =>
        rw [mark_or 6 0x40 rfl (by decide) (by omega) (by decide)]
        rfl
      next => rfl

/-- A spelling is what a word is written as, behind whatever is in the buffer. -/
def Written (value : UInt32) (spelled : Bytes) : Prop :=
  ∀ out, appendCompressed value out = .ok () (out ++ spelled)

/-- A word is written behind anything as it is by itself. -/
theorem written_iff {value : UInt32} {spelled : Bytes} :
    Written value spelled ↔ compress value.toNat = .ok spelled := by
  unfold Written
  simp only [appendCompressed_eq]
  cases compress value.toNat with
  | ok bytes => simp
  | error fault => simp

/-! ## Reading -/

/-- Whatever reads a spelling comes to the value and is right behind it. -/
structure ReadsAs (value : Nat) (spelled : Bytes) : Prop where
  /-- A cursor with the spelling and more ahead of it. -/
  cursor : ∀ (cursor : Cursor) (rest : Bytes), cursor.ahead = spelled ++ rest →
    ∃ after, Cursor.integer cursor = .ok value after ∧ after.data = cursor.data ∧
      after.position = cursor.position + spelled.length ∧ after.ahead = rest
  /-- A source that hands out the spelling. -/
  source : ∀ {ρ : Type} [ByteSource ρ] (source last : ρ), Passes source spelled last →
    readCompressed source = .ok value last

/-- Both readers read every spelling, the shortest or not, and no byte more. -/
theorem Spells.readsAs {value : Nat} {spelled : Bytes} (spells : Spells value spelled) :
    ReadsAs value spelled where
  cursor cursor rest ahead := by
    obtain ⟨after, passes, ahead_eq, position⟩ := exists_passes ahead
    refine ⟨after, ?_, (passes_cursor_iff.mp passes).2.1, position, ahead_eq⟩
    rw [Cursor.integer_eq]
    exact (recognises_readCompressed _ _ _).mpr ⟨spelled, spells, passes⟩
  source source last passes :=
    (recognises_readCompressed source value last).mpr ⟨spelled, spells, passes⟩

/-- What was read, how long what it was read from is at least, and how it is written again. -/
theorem exists_written_of_spells {value : Nat} {consumed : Bytes} (spells : Spells value consumed) :
    value ≤ greatest ∧ ∃ spelled, Written (UInt32.ofNat value) spelled ∧
      spelled.length ≤ consumed.length := by
  have small := spells.le_greatest
  obtain ⟨spelled, written⟩ := exists_compress small
  have word : (UInt32.ofNat value).toNat = value := by
    rw [UInt32.toNat_ofNat']
    exact Nat.mod_eq_of_lt (Nat.lt_of_le_of_lt small (by decide))
  refine ⟨small, spelled, written_iff.mpr (by rw [word, written]), ?_⟩
  rw [length_of_compress written]
  exact spells.leastLength_le

/-! ## Spellings side by side -/

/-- Bytes spell one number at most. -/
theorem Spells.value_eq {value value' : Nat} {spelled : Bytes} (spells : Spells value spelled)
    (spells' : Spells value' spelled) : value = value' := by
  obtain ⟨last, passes, -⟩ := exists_passes_ofBytes spelled []
  have read := spells.readsAs.source _ _ passes
  rw [spells'.readsAs.source _ _ passes] at read
  cases read
  rfl

/-- A spelling that another one starts with is that one: the first byte tells the length. -/
theorem Spells.eq_of_prefix {value value' : Nat} {spelled spelled' : Bytes}
    (spells : Spells value spelled) (spells' : Spells value' spelled')
    (front : spelled <+: spelled') : spelled = spelled' := by
  refine front.eq_of_length ?_
  cases spells with
  | one low =>
    cases spells' with
    | one low' => rfl
    | two bits | four bits =>
      have same := (List.cons_prefix_cons.mp front).1
      rw [same] at low
      omega
  | two bits =>
    cases spells' with
    | two bits' => rfl
    | one low' | four bits' =>
      have same := (List.cons_prefix_cons.mp front).1
      rw [same] at bits
      omega
  | four bits =>
    cases spells' with
    | four bits' => rfl
    | one low' | two bits' =>
      have same := (List.cons_prefix_cons.mp front).1
      rw [same] at bits
      omega

/-- Compressed integers come back. A word that has a compressed form is appended to a buffer, and
every reader in front of what was appended reads it and is right behind it; a greater word is
refused and the buffer stays. What any reader takes for an integer is one of these words, and was
not written shorter than it is by the writer. Of two words' forms neither starts with the other,
unless they are the same. -/
theorem compressed_lossless :
    (∀ value : UInt32, value.toNat ≤ greatest →
      ∃ spelled, Written value spelled ∧ ReadsAs value.toNat spelled) ∧
    (∀ value : UInt32, greatest < value.toNat → ∀ out,
      appendCompressed value out = .error (.malformed (.integerTooLarge value.toNat)) out) ∧
    (∀ (cursor after : Cursor) (value : Nat), Cursor.integer cursor = .ok value after →
      value ≤ greatest ∧ ∃ spelled, Written (UInt32.ofNat value) spelled ∧
        spelled.length ≤ after.position - cursor.position) ∧
    (∀ {ρ : Type} [ByteSource ρ] (source last : ρ) (value : Nat),
      readCompressed source = .ok value last →
      value ≤ greatest ∧ ∃ spelled, Written (UInt32.ofNat value) spelled ∧
        ∃ consumed, Passes source consumed last ∧ spelled.length ≤ consumed.length) ∧
    (∀ (value value' : UInt32) (spelled spelled' : Bytes), Written value spelled →
      Written value' spelled' → spelled <+: spelled' → spelled = spelled' ∧ value = value') := by
  refine ⟨fun value small => ?_, fun value large out => ?_, fun cursor after value read => ?_,
    fun source last value read => ?_, fun value value' spelled spelled' one other front => ?_⟩
  · obtain ⟨spelled, written⟩ := exists_compress small
    exact ⟨spelled, written_iff.mpr written, (spells_of_compress written).readsAs⟩
  · have refused : compress value.toNat = .error (.malformed (.integerTooLarge value.toNat)) := by
      unfold greatest at large
      unfold compress greatest
      rw [if_neg (by omega), if_neg (by omega), if_neg (by omega)]
    rw [appendCompressed_eq, refused]
  · rw [Cursor.integer_eq] at read
    obtain ⟨consumed, spells, passes⟩ := (recognises_readCompressed _ _ _).mp read
    obtain ⟨-, -, position⟩ := passes_cursor_iff.mp passes
    obtain ⟨small, spelled, written, shorter⟩ := exists_written_of_spells spells
    exact ⟨small, spelled, written, by omega⟩
  · obtain ⟨consumed, spells, passes⟩ := (recognises_readCompressed _ _ _).mp read
    obtain ⟨small, spelled, written, shorter⟩ := exists_written_of_spells spells
    exact ⟨small, spelled, written, consumed, passes, shorter⟩
  · have spells := spells_of_compress (written_iff.mp one)
    have spells' := spells_of_compress (written_iff.mp other)
    have same := spells.eq_of_prefix spells' front
    subst same
    exact ⟨rfl, UInt32.toNat_inj.mp (spells.value_eq spells')⟩

/-- The greatest word of two bytes and the least of four, a word too great, and a number that takes
four bytes although one would do. -/
theorem compressed_lossless_bounds :
    (∃ spelled, Written 0x3FFF spelled ∧ ReadsAs 0x3FFF spelled) ∧
    (∃ spelled, Written 0x4000 spelled ∧ ReadsAs 0x4000 spelled) ∧
    appendCompressed 0x20000000 [0xAA] =
      .error (.malformed (.integerTooLarge 0x20000000)) [0xAA] ∧
    ∃ after, Cursor.integer (Cursor.ofBytes [0xC0, 0x00, 0x00, 0x05, 0x07]) = .ok 5 after ∧
      after.ahead = [0x07] ∧ ∃ spelled, Written 5 spelled ∧ spelled.length ≤ 4 := by
  obtain ⟨written, refused, read, -⟩ := compressed_lossless
  refine ⟨written 0x3FFF (by decide), written 0x4000 (by decide),
    refused 0x20000000 (by decide) [0xAA], ?_⟩
  have four : Spells 5 [0xC0, 0x00, 0x00, 0x05] := @Spells.four 0xC0 0x00 0x00 0x05 (by decide)
  obtain ⟨after, reads, -, position, ahead⟩ :=
    four.readsAs.cursor (Cursor.ofBytes [0xC0, 0x00, 0x00, 0x05, 0x07]) [0x07] rfl
  obtain ⟨-, spelled, word, shorter⟩ := read _ after 5 reads
  exact ⟨after, reads, ahead, spelled, word, by rwa [position] at shorter⟩

end CilCapture.Signature
