import CilCapture.Bytes

/-!
# Reading numbers from bytes

A number is read from the front of a string exactly when the string starts with its bytes
(`readNat_eq_some_iff`); so reading loses nothing, and what was read can be written back.

Writing is shown to be the inverse of reading from both sides: what was written is read
(`readNat_ofNat_append`), and what is read had been written, of a number that fits the width
(`eq_of_readNat`). Every reader of this library ends in this pair.

Beside it stands what rounding up to a multiple of four does to an offset, for the sections that are
placed that way.
-/

namespace CilCapture.Bytes

/-- Whatever is read fits the width, and the bytes read are exactly the ones that writing the value
gives: little-endian numbers have one spelling each. -/
theorem eq_of_readNat {width value : Nat} {bytes rest : Bytes}
    (read : readNat width bytes = some (value, rest)) :
    value < capacity width ∧ bytes = ofNat width value ++ rest := by
  induction width generalizing value bytes rest with
  | zero => cases read; exact ⟨Nat.one_pos, rfl⟩
  | succ width ih =>
    cases bytes with
    | nil => cases read
    | cons byte tail =>
      rw [readNat] at read
      cases reading : readNat width tail with
      | none => rw [reading] at read; cases read
      | some result =>
        obtain ⟨high, after⟩ := result
        rw [reading] at read
        obtain ⟨small, same⟩ := ih reading
        cases read
        have low : byte.toNat < 256 := byte.toNat_lt
        refine ⟨by rw [capacity]; omega, ?_⟩
        have quotient : (byte.toNat + 256 * high) / 256 = high := by omega
        have first : UInt8.ofNat (byte.toNat + 256 * high) = byte := by
          apply UInt8.toNat_inj.mp
          rw [UInt8.toNat_ofNat']
          omega
        rw [ofNat, quotient, first, same, List.cons_append]

/-- A number is read exactly when its bytes stand in front. -/
theorem readNat_eq_some_iff {width value : Nat} {bytes rest : Bytes} :
    readNat width bytes = some (value, rest) ↔
      value < capacity width ∧ bytes = ofNat width value ++ rest := by
  constructor
  · exact eq_of_readNat
  · rintro ⟨small, rfl⟩
    rw [readNat_ofNat_append, Nat.mod_eq_of_lt small]

/-- A number read back from its bytes, as far as they hold it. -/
theorem toNat_ofNat (width value : Nat) : toNat (ofNat width value) = value % capacity width := by
  induction width generalizing value with
  | zero => simp [ofNat, toNat, capacity, Nat.mod_one]
  | succ width ih =>
    have byte : (UInt8.ofNat value).toNat = value % 256 := by simp
    rw [ofNat, toNat, ih, byte, capacity, Nat.mod_mul]

/-- The low bytes of a number are its bytes in a smaller width. -/
theorem take_ofNat {narrow width : Nat} (le : narrow ≤ width) (value : Nat) :
    (ofNat width value).take narrow = ofNat narrow value := by
  induction narrow generalizing width value with
  | zero => rfl
  | succ narrow ih =>
    obtain ⟨width, rfl⟩ := Nat.exists_eq_add_one_of_ne_zero (Nat.ne_zero_of_lt le)
    rw [ofNat, ofNat, List.take_succ_cons, ih (Nat.le_of_succ_le_succ le)]

@[simp] theorem length_ofInt (width : Nat) (value : Int) : (ofInt width value).length = width :=
  length_ofNat width _

@[simp] theorem length_zeros (count : Nat) : (zeros count).length = count :=
  List.length_replicate

/-- Aligning never moves an offset back. -/
theorem le_alignFour (offset : Nat) : offset ≤ alignFour offset := by
  unfold alignFour
  omega

theorem four_dvd_alignFour (offset : Nat) : 4 ∣ alignFour offset := Nat.dvd_mul_left 4 _

/-- An offset that is aligned already stays where it is. -/
theorem alignFour_eq_self {offset : Nat} (aligned : 4 ∣ offset) : alignFour offset = offset := by
  unfold alignFour
  omega

end CilCapture.Bytes
