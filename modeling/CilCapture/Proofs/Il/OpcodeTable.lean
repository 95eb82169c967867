import CilCapture.Il.Decode
import CilCapture.Proofs.Bytes
import CilCapture.Proofs.Outcome
import Mathlib.Data.List.Nodup

/-!
# Opcodes and their bytes

The table is ascending, so a value names at most one entry; and an entry takes two bytes exactly
when its first byte is the escape, so an opcode can be told from the bytes in front of a stream.
`takeOpcode_eq_ok_iff` is both together: an opcode is taken exactly when it is an entry of the table
and its bytes stand in front.

The facts about single entries are checked by evaluation over the whole table, once each, and
everything else is derived from them. So another table would need only these checks to be run again.
-/

namespace CilCapture.Il

namespace Opcode

set_option maxRecDepth 2000 in
/-- The table is in ascending order of value. -/
theorem table_ascending : (table.map fun opcode => opcode.value.toNat).Pairwise (· < ·) := by
  have chain : (table.map fun opcode => opcode.value.toNat).IsChain (· < ·) := by decide
  exact chain.pairwise

/-- Two entries of one value are the same entry. -/
theorem eq_of_value_eq {opcode other : Opcode} (mem : opcode ∈ table) (mem' : other ∈ table)
    (same : opcode.value = other.value) : opcode = other := by
  have nodup : (table.map fun opcode => opcode.value.toNat).Nodup :=
    table_ascending.imp fun less => Nat.ne_of_lt less
  exact List.inj_on_of_nodup_map nodup mem mem' (congrArg UInt16.toNat same)

/-- An entry is found by its value. -/
theorem ofValue?_value {opcode : Opcode} (mem : opcode ∈ table) :
    ofValue? opcode.value = some opcode := by
  cases found : ofValue? opcode.value with
  | none =>
    have missing := List.find?_eq_none.mp found opcode mem
    simp at missing
  | some other =>
    obtain ⟨mem', same⟩ := mem_table_of_ofValue? found
    rw [eq_of_value_eq mem' mem same]

set_option maxRecDepth 2000 in
/-- The high byte of a two-byte opcode is the escape, and no one-byte opcode is the escape. -/
theorem value_of_mem_table : ∀ opcode ∈ table,
    if opcode.isTwoByte then opcode.value.toNat / 256 = escape.toNat
    else opcode.value.toNat < 256 ∧ opcode.value.toNat ≠ escape.toNat := by
  decide

/-- The bytes of an opcode are as many as its size says. -/
@[simp] theorem length_encode (opcode : Opcode) : opcode.encode.length = opcode.size := by
  unfold encode size
  split <;> rfl

theorem size_pos (opcode : Opcode) : 0 < opcode.size := by
  unfold size
  split <;> omega

/-- A two-byte opcode is the escape and its low byte. -/
theorem encode_of_isTwoByte {opcode : Opcode} (mem : opcode ∈ table) (long : opcode.isTwoByte) :
    opcode.value.toNat = 0xFE00 + opcode.value.toNat % 256 ∧
      opcode.encode = Bytes.ofNat 1 escape.toNat ++ Bytes.ofNat 1 (opcode.value.toNat % 256) := by
  have shape := value_of_mem_table opcode mem
  rw [if_pos long] at shape
  have value_eq : escape.toNat = 0xFE := rfl
  have high : (opcode.value >>> 8).toUInt8 = escape := by
    rw [← UInt8.toNat_inj, ← shape]
    simp
    omega
  refine ⟨by omega, ?_⟩
  have low : opcode.value.toUInt8 = UInt8.ofNat (opcode.value.toNat % 256) := by
    rw [← UInt8.toNat_inj]
    simp
  rw [encode, if_pos long, high, low]
  rfl

/-- A one-byte opcode is its value. -/
theorem encode_of_not_isTwoByte {opcode : Opcode} (short : ¬ opcode.isTwoByte) :
    opcode.encode = Bytes.ofNat 1 opcode.value.toNat := by
  rw [encode, if_neg short]
  rfl

end Opcode

/-- A number is taken exactly when its bytes stand in front. -/
theorem takeNumber_eq_ok_iff {width value : Nat} {bytes rest : Bytes} :
    takeNumber width bytes = .ok (value, rest) ↔
      value < Bytes.capacity width ∧ bytes = Bytes.ofNat width value ++ rest := by
  rw [← Bytes.readNat_eq_some_iff, takeNumber]
  cases Bytes.readNat width bytes <;> simp

/-- The entry of a value, with what follows it. -/
private theorem eq_of_entry {offset value : Nat} {rest tail : Bytes} {opcode : Opcode}
    (found : (match Opcode.ofValue? (UInt16.ofNat value) with
      | some entry => pure (entry, tail)
      | none => throw (.malformed (.unknownOpcode (UInt16.ofNat value) offset)) :
        Except Fault (Opcode × Bytes)) = .ok (opcode, rest)) :
    opcode ∈ Opcode.table ∧ opcode.value = UInt16.ofNat value ∧ tail = rest := by
  cases entry : Opcode.ofValue? (UInt16.ofNat value) with
  | none => rw [entry] at found; cases found
  | some other =>
    rw [entry] at found
    cases found
    obtain ⟨mem, same⟩ := Opcode.mem_table_of_ofValue? entry
    exact ⟨mem, same, rfl⟩

/-- What an opcode taken from a stream is: the entry of the one or two bytes in front. -/
private theorem eq_of_takeOpcode {offset : Nat} {bytes rest : Bytes} {opcode : Opcode}
    (taken : takeOpcode offset bytes = .ok (opcode, rest)) :
    opcode ∈ Opcode.table ∧ bytes = opcode.encode ++ rest := by
  rw [takeOpcode, bind_eq_ok] at taken
  obtain ⟨⟨first, after⟩, head, taken⟩ := taken
  obtain ⟨small, rfl⟩ := takeNumber_eq_ok_iff.mp head
  have escape_eq : Opcode.escape.toNat = 0xFE := rfl
  have bound : Bytes.capacity 1 = 256 := rfl
  dsimp only at taken
  split at taken
  next escape =>
    rw [bind_eq_ok] at taken
    obtain ⟨⟨second, tail⟩, next, taken⟩ := taken
    obtain ⟨small', rfl⟩ := takeNumber_eq_ok_iff.mp next
    obtain ⟨mem, same, rfl⟩ := eq_of_entry taken
    refine ⟨mem, ?_⟩
    -- a two-byte opcode has the escape above its second byte, a one-byte opcode nothing
    have shape := Opcode.value_of_mem_table opcode mem
    have whole : opcode.value.toNat = 0xFE00 + second := by
      rw [same, UInt16.toNat_ofNat']
      omega
    have long : opcode.isTwoByte := by
      by_contra short
      rw [if_neg short] at shape
      omega
    obtain ⟨-, spelled⟩ := Opcode.encode_of_isTwoByte mem long
    have low : opcode.value.toNat % 256 = second := by omega
    rw [spelled, low, escape, List.append_assoc]
  next plain =>
    obtain ⟨mem, same, rfl⟩ := eq_of_entry taken
    refine ⟨mem, ?_⟩
    have shape := Opcode.value_of_mem_table opcode mem
    have whole : opcode.value.toNat = first := by
      rw [same, UInt16.toNat_ofNat']
      omega
    have short : ¬ opcode.isTwoByte := by
      intro long
      rw [if_pos long] at shape
      omega
    rw [Opcode.encode_of_not_isTwoByte short, whole]

/-- An opcode is taken exactly when it is in the table and its bytes stand in front. -/
theorem takeOpcode_eq_ok_iff {offset : Nat} {bytes rest : Bytes} {opcode : Opcode} :
    takeOpcode offset bytes = .ok (opcode, rest) ↔
      opcode ∈ Opcode.table ∧ bytes = opcode.encode ++ rest := by
  refine ⟨eq_of_takeOpcode, ?_⟩
  rintro ⟨mem, rfl⟩
  have shape := Opcode.value_of_mem_table opcode mem
  have found := Opcode.ofValue?_value mem
  have word : UInt16.ofNat opcode.value.toNat = opcode.value := UInt16.ofNat_toNat
  have take (value : Nat) (small : value < 256) (tail : Bytes) :
      takeNumber 1 (Bytes.ofNat 1 value ++ tail) = .ok (value, tail) :=
    takeNumber_eq_ok_iff.mpr ⟨small, rfl⟩
  by_cases long : opcode.isTwoByte
  · obtain ⟨value_eq, spelled⟩ := Opcode.encode_of_isTwoByte mem long
    rw [spelled, List.append_assoc, takeOpcode, take _ (by decide)]
    simp only [bind, Except.bind, if_pos, take _ (Nat.mod_lt _ (by decide : 256 > 0))]
    simp only [pure, Except.pure, ← value_eq, word, found]
  · rw [if_neg long] at shape
    rw [Opcode.encode_of_not_isTwoByte long, takeOpcode, take _ shape.1]
    simp only [bind, Except.bind, if_neg shape.2]
    simp only [pure, Except.pure, word, found]

end CilCapture.Il
