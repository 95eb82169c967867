import CilCapture.Il.Encode
import CilCapture.Proofs.Il.OpcodeTable

/-!
# Operands and their bytes

How an operand stands in a stream, said once for reading and for writing. `Operand.immediateBytes?`
is the form of everything but a jump. `ScannedOperand.Spells` adds jumps, by the distance from the
next instruction to the byte offsets they go to, and `ScannedOperand.InReach` is what a reader asks
of these offsets. `takeOperand_eq_ok_iff` and `encodeOperand_eq_ok_iff` say that reading and writing
are this one form, the latter with every offset named by the index of the instruction there
(`ScannedOperand.Names`), which is what resolving finds (`ScannedOperand.resolve_eq_ok_iff`).

The proofs are by cases on the kind of the operand. Kinds that are no jump are all one case
(`takes_immediate_iff`). The two widths of branches are one lemma with the width as a parameter
(`takeBranch_eq_ok_iff`), and a jump table is that lemma's word repeated.

A displacement is a number with a sign and counts from the end of its own instruction, which for a
jump table lies behind the table. That it is in reach is asked by the reader of the target and by
the writer of the distance; `fitsWord_displacement32` and its neighbours are what lets one be told
from the other.
-/

namespace CilCapture.Il

/-! ## Displacements -/

private theorem displacement8_eq (bits : Nat) : displacement8 bits = (bits : Int).bmod 256 := by
  simp [displacement8]

private theorem displacement32_eq (bits : Nat) :
    displacement32 bits = (bits : Int).bmod 0x100000000 := by
  simp [displacement32]

/-- Whether a signed byte holds a displacement. -/
def FitsByte (displacement : Int) : Prop := -128 ≤ displacement ∧ displacement ≤ 127

/-- Whether a signed word holds a displacement. -/
def FitsWord (displacement : Int) : Prop :=
  -0x80000000 ≤ displacement ∧ displacement ≤ 0x7FFFFFFF

/-- Whatever a byte holds, its displacement fits a short branch. -/
theorem fitsByte_displacement8 (bits : Nat) : FitsByte (displacement8 bits) := by
  rw [FitsByte, displacement8_eq, Int.bmod_def]
  omega

/-- Whatever a word holds, its displacement fits a branch. -/
theorem fitsWord_displacement32 (bits : Nat) : FitsWord (displacement32 bits) := by
  rw [FitsWord, displacement32_eq, Int.bmod_def]
  omega

/-- A displacement is written as the byte that it was read from. -/
theorem ofInt_displacement8 {bits : Nat} (small : bits < 0x100) :
    Bytes.ofInt 1 (displacement8 bits) = Bytes.ofNat 1 bits := by
  have same : (displacement8 bits % (0x100 : Nat)).toNat = bits := by
    rw [displacement8_eq, Int.bmod_def]
    omega
  exact congrArg (Bytes.ofNat 1) same

/-- A displacement is written as the word that it was read from. -/
theorem ofInt_displacement32 {bits : Nat} (small : bits < 0x100000000) :
    Bytes.ofInt 4 (displacement32 bits) = Bytes.ofNat 4 bits := by
  have same : (displacement32 bits % (0x100000000 : Nat)).toNat = bits := by
    rw [displacement32_eq, Int.bmod_def]
    omega
  exact congrArg (Bytes.ofNat 4) same

/-- Every displacement that fits a byte is the reading of some byte, and is written as that byte. -/
theorem exists_bits_of_fitsByte {displacement : Int} (fits : FitsByte displacement) :
    ∃ bits, bits < 0x100 ∧ displacement8 bits = displacement ∧
      Bytes.ofInt 1 displacement = Bytes.ofNat 1 bits := by
  obtain ⟨lower, upper⟩ := fits
  refine ⟨(displacement % (0x100 : Nat)).toNat, by omega, ?_, rfl⟩
  rw [displacement8_eq, Int.bmod_def]
  omega

/-- Every displacement that fits a word is the reading of some word, and is written as that word. -/
theorem exists_bits_of_fitsWord {displacement : Int} (fits : FitsWord displacement) :
    ∃ bits, bits < 0x100000000 ∧ displacement32 bits = displacement ∧
      Bytes.ofInt 4 displacement = Bytes.ofNat 4 bits := by
  obtain ⟨lower, upper⟩ := fits
  refine ⟨(displacement % (0x100000000 : Nat)).toNat, by omega, ?_, rfl⟩
  rw [displacement32_eq, Int.bmod_def]
  omega

/-! ## The form of an operand -/

/-- The bytes of an operand that is no jump, if it is of the given kind. -/
def Operand.immediateBytes? : OperandKind → Operand → Option Bytes
  | .none, .none => some []
  | .int8, .int8 value => some (Bytes.ofNat 1 value.toUInt8.toNat)
  | .uint8, .uint8 value => some (Bytes.ofNat 1 value.toNat)
  | .uint16, .uint16 value => some (Bytes.ofNat 2 value.toNat)
  | .int32, .int32 value => some (Bytes.ofNat 4 value.toUInt32.toNat)
  | .int64, .int64 value => some (Bytes.ofNat 8 value.toUInt64.toNat)
  | .float32, .float32 bits => some (Bytes.ofNat 4 bits.toNat)
  | .float64, .float64 bits => some (Bytes.ofNat 8 bits.toNat)
  | .token, .token reference => some (Bytes.ofNat 4 reference.value.toNat)
  | _, _ => Option.none

/-- The distances from the next instruction, at `next`, to targets. -/
def distances (next : Nat) (targets : List Nat) : List Int :=
  targets.map fun target : Nat => (target : Int) - next

/-- The jump table of targets, when the next instruction is at `next`. -/
def tableBytes (next : Nat) (targets : List Nat) : Bytes :=
  Bytes.ofNat 4 targets.length ++ ((distances next targets).map (Bytes.ofInt 4)).flatten

theorem length_distances (next : Nat) (targets : List Nat) :
    (distances next targets).length = targets.length := List.length_map _

private theorem length_flatten_ofInt (displacements : List Int) :
    ((displacements.map (Bytes.ofInt 4)).flatten).length = 4 * displacements.length := by
  rw [List.length_flatten, List.map_map]
  simp [Function.comp_def, Nat.mul_comm]

/-- A jump table is its count and four bytes for each target. -/
theorem length_tableBytes (next : Nat) (targets : List Nat) :
    (tableBytes next targets).length = 4 + 4 * targets.length := by
  rw [tableBytes, List.length_append, length_flatten_ofInt, length_distances, Bytes.length_ofNat]

namespace ScannedOperand

/-- The byte offsets that an operand goes to. -/
def targets : ScannedOperand → List Nat
  | immediate _ => []
  | jump target => [target]
  | jumps targets => targets

/-- The bytes of an operand of a kind when the next instruction is at `next`. -/
inductive Spells (next : Nat) : OperandKind → ScannedOperand → Bytes → Prop
  | immediate {kind : OperandKind} {operand : Operand} {bytes : Bytes}
      (spelled : operand.immediateBytes? kind = some bytes) :
      Spells next kind (immediate operand) bytes
  | shortBranch (target : Nat) (fits : FitsByte ((target : Int) - next)) :
      Spells next .shortBranch (jump target) (Bytes.ofInt 1 ((target : Int) - next))
  | branch (target : Nat) :
      Spells next .branch (jump target) (Bytes.ofInt 4 ((target : Int) - next))
  | switch (targets : List Nat) :
      Spells next .switch (jumps targets) (tableBytes next targets)

/-- Jumps that stay inside a stream of `total` bytes, and in numbers and distances that words
hold. -/
structure InReach (total next : Nat) (operand : ScannedOperand) : Prop where
  count_lt : operand.targets.length < 0x100000000
  inside : ∀ target ∈ operand.targets, target < total
  fits : ∀ target ∈ operand.targets, FitsWord ((target : Int) - next)

/-- The operand with its offsets named by the indices of the instructions there. -/
inductive Names (starts : List Nat) : ScannedOperand → Operand → Prop
  | immediate (operand : Operand) : Names starts (immediate operand) operand
  | jump {target index : Nat} (there : starts[index]? = some target) :
      Names starts (jump target) (.target index)
  | jumps {targets indices : List Nat}
      (there : List.Forall₂ (fun target index => starts[index]? = some target) targets indices) :
      Names starts (jumps targets) (.switch indices)

/-- Outside the three kinds of jumps an operand spells its own bytes and is complete as it stands:
nothing of it waits for the starts. -/
theorem Spells.exists_immediate {next : Nat} {kind : OperandKind} {operand : ScannedOperand}
    {bytes : Bytes} (spells : operand.Spells next kind bytes)
    (plain : kind ≠ .shortBranch ∧ kind ≠ .branch ∧ kind ≠ .switch) :
    ∃ complete : Operand, operand = ScannedOperand.immediate complete ∧
      complete.immediateBytes? kind = some bytes := by
  cases spells with
  | immediate spelled => exact ⟨_, rfl, spelled⟩
  | shortBranch => exact absurd rfl plain.1
  | branch => exact absurd rfl plain.2.1
  | switch => exact absurd rfl plain.2.2

/-- A complete operand spells the bytes it is written with. -/
theorem Spells.immediateBytes?_eq {next : Nat} {kind : OperandKind} {operand : Operand}
    {bytes : Bytes} (spells : (ScannedOperand.immediate operand).Spells next kind bytes) :
    operand.immediateBytes? kind = some bytes := by
  cases spells with
  | immediate spelled => exact spelled

/-- An operand that jumps nowhere is in reach of everything. -/
theorem InReach.of_immediate (total next : Nat) (operand : Operand) :
    InReach total next (immediate operand) :=
  ⟨by simp [targets], by simp [targets], by simp [targets]⟩

/-- Bytes of an operand of a kind. -/
def size (kind : OperandKind) : ScannedOperand → Nat
  | jumps targets => 4 + 4 * targets.length
  | _ => kind.size

/-- An operand takes the bytes that its kind says, a jump table four more for each target. -/
theorem Spells.length_eq {next : Nat} {kind : OperandKind} {operand : ScannedOperand}
    {bytes : Bytes} (spells : operand.Spells next kind bytes) :
    bytes.length = operand.size kind := by
  cases spells with
  | @immediate kind operand _ spelled =>
    cases kind <;> cases operand <;> cases spelled <;> simp [size, OperandKind.size]
  | shortBranch target fits => simp [size, OperandKind.size]
  | branch target => simp [size, OperandKind.size]
  | switch targets => exact length_tableBytes next targets

end ScannedOperand

/-! ## Reading -/

/-- A number read as an immediate is one whose operand is spelled by the number's bytes. -/
private theorem takeImmediate_eq_ok_iff (width : Nat) {kind : OperandKind} (make : Nat → Operand)
    (spelled : ∀ bits, bits < Bytes.capacity width →
      (make bits).immediateBytes? kind = some (Bytes.ofNat width bits))
    (made : ∀ operand written, operand.immediateBytes? kind = some written →
      ∃ bits, bits < Bytes.capacity width ∧ operand = make bits)
    {bytes rest : Bytes} {scanned : ScannedOperand} :
    (do let (bits, rest) ← takeNumber width bytes; return (.immediate (make bits), rest) :
      Except Fault (ScannedOperand × Bytes)) = .ok (scanned, rest) ↔
    ∃ operand written, scanned = .immediate operand ∧
      operand.immediateBytes? kind = some written ∧ bytes = written ++ rest := by
  rw [bind_eq_ok]
  constructor
  · rintro ⟨⟨bits, after⟩, taken, same⟩
    cases same
    obtain ⟨small, rfl⟩ := takeNumber_eq_ok_iff.mp taken
    exact ⟨make bits, _, rfl, spelled bits small, rfl⟩
  · rintro ⟨operand, written, rfl, form, rfl⟩
    obtain ⟨bits, small, rfl⟩ := made operand written form
    cases (spelled bits small).symm.trans form
    exact ⟨(bits, rest), takeNumber_eq_ok_iff.mpr ⟨small, rfl⟩, rfl⟩

/-- A jump is taken just when it lands in the code, and its displacement counts from the end of its
instruction. -/
theorem jumpTarget_eq_ok_iff {total offset next target : Nat} {displacement : Int} :
    jumpTarget total offset next displacement = .ok target ↔
      target < total ∧ displacement = (target : Int) - next := by
  unfold jumpTarget
  dsimp only
  split
  next outside =>
    constructor
    · intro impossible
      cases impossible
    · rintro ⟨inside, rfl⟩
      omega
  next inside =>
    rw [Except.ok.injEq]
    omega

/-- Displacements are taken off the front as many words, and they are the ones that fit a word and
are written so. -/
theorem takeDisplacements_eq_ok_iff {count : Nat} {bytes rest : Bytes} {displacements : List Int} :
    takeDisplacements count bytes = .ok (displacements, rest) ↔
      displacements.length = count ∧ (∀ displacement ∈ displacements, FitsWord displacement) ∧
        bytes = (displacements.map (Bytes.ofInt 4)).flatten ++ rest := by
  induction count generalizing bytes rest displacements with
  | zero =>
    rw [takeDisplacements]
    constructor
    · intro same
      cases same
      simp
    · rintro ⟨empty, -, rfl⟩
      rw [List.length_eq_zero_iff.mp empty]
      rfl
  | succ count ih =>
    rw [takeDisplacements, bind_eq_ok]
    constructor
    · rintro ⟨⟨bits, after⟩, taken, same⟩
      obtain ⟨small, rfl⟩ := takeNumber_eq_ok_iff.mp taken
      rw [bind_eq_ok] at same
      obtain ⟨⟨others, after'⟩, tail, same⟩ := same
      obtain ⟨length_eq, fits, rfl⟩ := ih.mp tail
      cases same
      refine ⟨by rw [List.length_cons, length_eq], ?_, ?_⟩
      · intro displacement mem
        rcases List.mem_cons.mp mem with rfl | mem
        · exact fitsWord_displacement32 bits
        · exact fits displacement mem
      · rw [List.map_cons, List.flatten_cons, ofInt_displacement32 small, List.append_assoc]
    -- back: the bits of the first displacement are determined by it, since it fits a word
    · rintro ⟨length_eq, fits, rfl⟩
      cases displacements with
      | nil => cases length_eq
      | cons displacement others =>
        obtain ⟨bits, small, read, written⟩ :=
          exists_bits_of_fitsWord (fits displacement List.mem_cons_self)
        have tail : takeDisplacements count ((others.map (Bytes.ofInt 4)).flatten ++ rest) =
            .ok (others, rest) :=
          ih.mpr ⟨Nat.succ.inj length_eq,
            fun other mem => fits other (List.mem_cons_of_mem _ mem), rfl⟩
        rw [List.map_cons, List.flatten_cons, written, List.append_assoc]
        refine ⟨(bits, _), takeNumber_eq_ok_iff.mpr ⟨small, rfl⟩, ?_⟩
        rw [bind_eq_ok]
        exact ⟨(others, rest), tail, by rw [read]; rfl⟩

/-- A whole table of jumps lands in the code just when each of its targets does. -/
private theorem mapM_jumpTarget_eq_ok_iff {total offset next : Nat} {displacements : List Int}
    {targets : List Nat} :
    displacements.mapM (jumpTarget total offset next) = .ok targets ↔
      (∀ target ∈ targets, target < total) ∧ displacements = distances next targets := by
  rw [mapM_eq_ok_iff]
  simp only [jumpTarget_eq_ok_iff]
  constructor
  · intro related
    induction related with
    | nil => exact ⟨fun target mem => absurd mem List.not_mem_nil, rfl⟩
    | cons head _ ih =>
      obtain ⟨inside, rfl⟩ := head
      obtain ⟨insides, rfl⟩ := ih
      refine ⟨fun target mem => ?_, rfl⟩
      rcases List.mem_cons.mp mem with rfl | mem
      · exact inside
      · exact insides target mem
  · rintro ⟨inside, rfl⟩
    rw [distances, List.forall₂_map_left_iff, List.forall₂_same]
    exact fun target mem => ⟨inside target mem, rfl⟩

/-- What reading an operand of a kind comes to, for an opcode that ends at `start`. -/
private def Takes (total start : Nat) (kind : OperandKind) (scanned : ScannedOperand)
    (bytes rest : Bytes) : Prop :=
  ∃ written, scanned.Spells (start + written.length) kind written ∧
    scanned.InReach total (start + written.length) ∧ bytes = written ++ rest

/-- For a plain kind, taking an operand off the front is finding the bytes of one. -/
private theorem takes_immediate_iff {total start : Nat} {kind : OperandKind}
    (plain : kind ≠ .shortBranch ∧ kind ≠ .branch ∧ kind ≠ .switch) {scanned : ScannedOperand}
    {bytes rest : Bytes} :
    Takes total start kind scanned bytes rest ↔
      ∃ operand written, scanned = .immediate operand ∧
        operand.immediateBytes? kind = some written ∧ bytes = written ++ rest := by
  constructor
  · rintro ⟨written, spells, -, rfl⟩
    obtain ⟨operand, rfl, spelled⟩ := spells.exists_immediate plain
    exact ⟨operand, written, rfl, spelled, rfl⟩
  · rintro ⟨operand, written, rfl, spelled, rfl⟩
    exact ⟨written, .immediate spelled, .of_immediate _ _ _, rfl⟩

/-- Both widths of branches at once: a displacement of the width is taken off the front just when it
belongs to a target in the code that the kind can reach. -/
private theorem takeBranch_eq_ok_iff {total offset start : Nat} (width : Nat) {kind : OperandKind}
    {displacement : Nat → Int} (Fits : Int → Prop)
    (fits : ∀ bits, Fits (displacement bits) ∧ FitsWord (displacement bits))
    (written : ∀ bits, bits < Bytes.capacity width →
      Bytes.ofInt width (displacement bits) = Bytes.ofNat width bits)
    (exists_bits : ∀ distance, Fits distance → ∃ bits, bits < Bytes.capacity width ∧
      displacement bits = distance ∧ Bytes.ofInt width distance = Bytes.ofNat width bits)
    (form : ∀ (next : Nat) (scanned : ScannedOperand) (bytes : Bytes), scanned.InReach total next →
      (scanned.Spells next kind bytes ↔ ∃ target : Nat, scanned = .jump target ∧
        Fits ((target : Int) - next) ∧ bytes = Bytes.ofInt width ((target : Int) - next)))
    {scanned : ScannedOperand} {bytes rest : Bytes} :
    (do
      let (bits, rest) ← takeNumber width bytes
      return (.jump (← jumpTarget total offset (start + width) (displacement bits)), rest) :
      Except Fault (ScannedOperand × Bytes)) = .ok (scanned, rest) ↔
    Takes total start kind scanned bytes rest := by
  rw [bind_eq_ok]
  constructor
  · rintro ⟨⟨bits, after⟩, taken, same⟩
    obtain ⟨small, rfl⟩ := takeNumber_eq_ok_iff.mp taken
    rw [bind_eq_ok] at same
    obtain ⟨target, there, same⟩ := same
    cases same
    obtain ⟨inside, distance⟩ := jumpTarget_eq_ok_iff.mp there
    obtain ⟨close, word⟩ := fits bits
    rw [distance] at close word
    have reach : (ScannedOperand.jump target).InReach total (start + width) :=
      ⟨by simp [ScannedOperand.targets], by simpa [ScannedOperand.targets] using inside,
        by simpa [ScannedOperand.targets] using word⟩
    refine ⟨Bytes.ofNat width bits, ?_, ?_, rfl⟩
    · rw [Bytes.length_ofNat, form _ _ _ reach]
      exact ⟨target, rfl, close, by rw [← distance, written bits small]⟩
    · rwa [Bytes.length_ofNat]
  · rintro ⟨bytes, spells, reach, rfl⟩
    obtain ⟨target, rfl, close, spelled⟩ := (form _ _ _ reach).mp spells
    have length_eq : bytes.length = width := by rw [spelled, Bytes.length_ofInt]
    rw [length_eq] at close spelled
    obtain ⟨bits, small, distance, same⟩ := exists_bits _ close
    have inside : target < total := reach.inside target List.mem_cons_self
    refine ⟨(bits, rest), takeNumber_eq_ok_iff.mpr ⟨small, by rw [spelled, same]⟩, ?_⟩
    rw [bind_eq_ok]
    exact ⟨target, jumpTarget_eq_ok_iff.mpr ⟨inside, distance⟩, rfl⟩

/-- A short branch spells the byte of its distance, which has to fit. -/
private theorem spells_shortBranch_iff {next : Nat} {scanned : ScannedOperand} {bytes : Bytes} :
    scanned.Spells next .shortBranch bytes ↔
      ∃ target : Nat, scanned = .jump target ∧ FitsByte ((target : Int) - next) ∧
        bytes = Bytes.ofInt 1 ((target : Int) - next) := by
  constructor
  · intro spells
    cases spells with
    | @immediate _ operand _ spelled => cases operand <;> cases spelled
    | shortBranch target fits => exact ⟨target, rfl, fits, rfl⟩
  · rintro ⟨target, rfl, fits, rfl⟩
    exact .shortBranch target fits

/-- A branch spells the word of its distance. -/
private theorem spells_branch_iff {next : Nat} {scanned : ScannedOperand} {bytes : Bytes} :
    scanned.Spells next .branch bytes ↔
      ∃ target : Nat, scanned = .jump target ∧ bytes = Bytes.ofInt 4 ((target : Int) - next) := by
  constructor
  · intro spells
    cases spells with
    | @immediate _ operand _ spelled => cases operand <;> cases spelled
    | branch target => exact ⟨target, rfl, rfl⟩
  · rintro ⟨target, rfl, rfl⟩
    exact .branch target

/-- A switch spells its table. -/
private theorem spells_switch_iff {next : Nat} {scanned : ScannedOperand} {bytes : Bytes} :
    scanned.Spells next .switch bytes ↔
      ∃ targets : List Nat, scanned = .jumps targets ∧ bytes = tableBytes next targets := by
  constructor
  · intro spells
    cases spells with
    | @immediate _ operand _ spelled => cases operand <;> cases spelled
    | switch targets => exact ⟨targets, rfl, rfl⟩
  · rintro ⟨targets, rfl, rfl⟩
    exact .switch targets

/-- A jump table is read from its count and as many displacements; that the count is held against
the bytes left first changes nothing for a table that is there. -/
private theorem takeSwitch_eq_ok_iff {total offset start : Nat} {scanned : ScannedOperand}
    {bytes rest : Bytes} :
    (do
      let (count, rest) ← takeNumber 4 bytes
      if rest.length / 4 < count then throw (.malformed (.switchTooLong offset count))
      let (displacements, rest) ← takeDisplacements count rest
      let targets ← displacements.mapM (jumpTarget total offset (start + 4 + 4 * count))
      return (.jumps targets, rest) :
      Except Fault (ScannedOperand × Bytes)) = .ok (scanned, rest) ↔
    Takes total start .switch scanned bytes rest := by
  rw [bind_eq_ok]
  constructor
  · rintro ⟨⟨count, after⟩, taken, same⟩
    obtain ⟨small, rfl⟩ := takeNumber_eq_ok_iff.mp taken
    dsimp only at same
    split at same
    next => cases same
    next enough =>
      rw [bind_eq_ok] at same
      obtain ⟨⟨displacements, tail⟩, read, same⟩ := same
      rw [bind_eq_ok] at same
      obtain ⟨targets, there, same⟩ := same
      cases same
      obtain ⟨length_eq, fits, rfl⟩ := takeDisplacements_eq_ok_iff.mp read
      obtain ⟨inside, rfl⟩ := mapM_jumpTarget_eq_ok_iff.mp there
      rw [length_distances] at length_eq
      subst length_eq
      have next_eq : start + (tableBytes (start + 4 + 4 * targets.length) targets).length =
          start + 4 + 4 * targets.length := by
        rw [length_tableBytes]
        omega
      refine ⟨tableBytes (start + 4 + 4 * targets.length) targets, ?_, ?_, ?_⟩
      · rw [next_eq]
        exact .switch targets
      · rw [next_eq]
        exact ⟨small, inside, fun target mem => fits _ (List.mem_map_of_mem mem)⟩
      · rw [tableBytes, List.append_assoc]
  · rintro ⟨written, spells, reach, rfl⟩
    obtain ⟨targets, rfl, spelled⟩ := spells_switch_iff.mp spells
    have next_eq : start + written.length = start + 4 + 4 * targets.length := by
      rw [spelled, length_tableBytes]
      omega
    rw [next_eq] at spelled reach
    subst spelled
    let table := distances (start + 4 + 4 * targets.length) targets
    have table_length : table.length = targets.length := length_distances _ targets
    have read : takeDisplacements targets.length ((table.map (Bytes.ofInt 4)).flatten ++ rest) =
        .ok (table, rest) := by
      refine takeDisplacements_eq_ok_iff.mpr ⟨table_length, fun distance mem => ?_, rfl⟩
      obtain ⟨target, mem', rfl⟩ := List.mem_map.mp mem
      exact reach.fits target mem'
    -- The reader holds the count against all bytes left, not only those of the table.
    have enough : ¬ ((table.map (Bytes.ofInt 4)).flatten ++ rest).length / 4 < targets.length := by
      rw [List.length_append, length_flatten_ofInt, table_length]
      omega
    refine ⟨(targets.length, (table.map (Bytes.ofInt 4)).flatten ++ rest),
      takeNumber_eq_ok_iff.mpr ⟨reach.count_lt, ?_⟩, ?_⟩
    · rw [tableBytes, List.append_assoc]
    · dsimp only
      rw [if_neg enough, bind_eq_ok]
      exact ⟨(table, rest), read, bind_eq_ok.mpr
        ⟨targets, mapM_jumpTarget_eq_ok_iff.mpr ⟨reach.inside, rfl⟩, rfl⟩⟩

/-- An operand is taken exactly when bytes that spell it stand in front and its jumps are in
reach. -/
theorem takeOperand_eq_ok_iff {total offset : Nat} {opcode : Opcode} {scanned : ScannedOperand}
    {bytes rest : Bytes} :
    takeOperand total offset opcode bytes = .ok (scanned, rest) ↔
      ∃ written, scanned.Spells (offset + opcode.size + written.length) opcode.operand written ∧
        scanned.InReach total (offset + opcode.size + written.length) ∧
        bytes = written ++ rest := by
  change _ ↔ Takes total (offset + opcode.size) opcode.operand scanned bytes rest
  obtain ⟨value, name, kind⟩ := opcode
  cases kind <;> dsimp only
  case none =>
    rw [takes_immediate_iff (by decide)]
    constructor
    · intro same
      cases same
      exact ⟨.none, [], rfl, rfl, rfl⟩
    · rintro ⟨operand, written, rfl, spelled, rfl⟩
      cases operand <;> cases spelled
      rfl
  case shortBranch =>
    refine takeBranch_eq_ok_iff 1 FitsByte
      (fun bits => ⟨fitsByte_displacement8 bits, ?_⟩) (fun bits => ofInt_displacement8)
      (fun distance => exists_bits_of_fitsByte) (fun next scanned bytes _ => spells_shortBranch_iff)
    have := fitsByte_displacement8 bits
    unfold FitsByte FitsWord at *
    omega
  case branch =>
    refine takeBranch_eq_ok_iff 4 FitsWord
      (fun bits => ⟨fitsWord_displacement32 bits, fitsWord_displacement32 bits⟩)
      (fun bits => ofInt_displacement32) (fun distance => exists_bits_of_fitsWord)
      (fun next scanned bytes reach => ?_)
    rw [spells_branch_iff]
    constructor
    · rintro ⟨target, rfl, rfl⟩
      exact ⟨target, rfl, reach.fits target List.mem_cons_self, rfl⟩
    · rintro ⟨target, rfl, -, rfl⟩
      exact ⟨target, rfl, rfl⟩
  case switch => exact takeSwitch_eq_ok_iff
  -- the plain numbers differ in their width and in what the bits are made into, and the bits can
  -- be told back from what is made
  all_goals rw [takes_immediate_iff (by decide)]
  case int8 =>
    refine takeImmediate_eq_ok_iff 1 (fun bits => .int8 (UInt8.ofNat bits).toInt8)
      (fun bits small => ?_) (fun operand written spelled => ?_)
    · have small : bits < 256 := small
      simp [Operand.immediateBytes?, Nat.mod_eq_of_lt small]
    · cases operand <;> cases spelled
      next value => exact ⟨value.toUInt8.toNat, value.toUInt8.toNat_lt, by simp⟩
  case uint8 =>
    refine takeImmediate_eq_ok_iff 1 (fun bits => .uint8 (UInt8.ofNat bits))
      (fun bits small => ?_) (fun operand written spelled => ?_)
    · have small : bits < 256 := small
      simp [Operand.immediateBytes?, Nat.mod_eq_of_lt small]
    · cases operand <;> cases spelled
      next value => exact ⟨value.toNat, value.toNat_lt, by simp⟩
  case uint16 =>
    refine takeImmediate_eq_ok_iff 2 (fun bits => .uint16 (UInt16.ofNat bits))
      (fun bits small => ?_) (fun operand written spelled => ?_)
    · have small : bits < 0x10000 := small
      simp [Operand.immediateBytes?, Nat.mod_eq_of_lt small]
    · cases operand <;> cases spelled
      next value => exact ⟨value.toNat, value.toNat_lt, by simp⟩
  case int32 =>
    refine takeImmediate_eq_ok_iff 4 (fun bits => .int32 (UInt32.ofNat bits).toInt32)
      (fun bits small => ?_) (fun operand written spelled => ?_)
    · have small : bits < 0x100000000 := small
      simp [Operand.immediateBytes?, Nat.mod_eq_of_lt small]
    · cases operand <;> cases spelled
      next value => exact ⟨value.toUInt32.toNat, value.toUInt32.toNat_lt, by simp⟩
  case int64 =>
    refine takeImmediate_eq_ok_iff 8 (fun bits => .int64 (UInt64.ofNat bits).toInt64)
      (fun bits small => ?_) (fun operand written spelled => ?_)
    · have small : bits < 0x10000000000000000 := small
      simp [Operand.immediateBytes?, Nat.mod_eq_of_lt small]
    · cases operand <;> cases spelled
      next value => exact ⟨value.toUInt64.toNat, value.toUInt64.toNat_lt, by simp⟩
  case float32 =>
    refine takeImmediate_eq_ok_iff 4 (fun bits => .float32 (UInt32.ofNat bits))
      (fun bits small => ?_) (fun operand written spelled => ?_)
    · have small : bits < 0x100000000 := small
      simp [Operand.immediateBytes?, Nat.mod_eq_of_lt small]
    · cases operand <;> cases spelled
      next value => exact ⟨value.toNat, value.toNat_lt, by simp⟩
  case float64 =>
    refine takeImmediate_eq_ok_iff 8 (fun bits => .float64 (UInt64.ofNat bits))
      (fun bits small => ?_) (fun operand written spelled => ?_)
    · have small : bits < 0x10000000000000000 := small
      simp [Operand.immediateBytes?, Nat.mod_eq_of_lt small]
    · cases operand <;> cases spelled
      next value => exact ⟨value.toNat, value.toNat_lt, by simp⟩
  case token =>
    refine takeImmediate_eq_ok_iff 4 (fun bits => .token ⟨UInt32.ofNat bits⟩)
      (fun bits small => ?_) (fun operand written spelled => ?_)
    · have small : bits < 0x100000000 := small
      simp [Operand.immediateBytes?, Nat.mod_eq_of_lt small]
    · cases operand <;> cases spelled
      next value => exact ⟨value.value.toNat, value.value.toNat_lt, by simp⟩

/-! ## Naming the targets -/

/-- A target resolves to an index just when the instruction of that index starts there. The starts
have to ascend, since the search is a binary one. -/
theorem boundary_eq_ok_iff {starts : List Nat} (ascending : starts.Pairwise (· < ·))
    {offset target index : Nat} :
    boundary starts offset target = .ok index ↔ starts[index]? = some target := by
  rw [← boundary?_eq_some_iff ascending, boundary]
  cases boundary? starts target <;> simp

/-- An operand resolves just to the ones whose indices name the starts it jumps to. -/
theorem ScannedOperand.resolve_eq_ok_iff {starts : List Nat}
    (ascending : starts.Pairwise (· < ·)) {offset : Nat} {scanned : ScannedOperand}
    {operand : Operand} :
    scanned.resolve starts offset = .ok operand ↔ scanned.Names starts operand := by
  cases scanned with
  | immediate complete =>
    constructor
    · intro same
      cases same
      exact .immediate _
    · intro named
      cases named
      rfl
  | jump target =>
    rw [ScannedOperand.resolve, map_eq_ok]
    simp only [boundary_eq_ok_iff ascending]
    constructor
    · rintro ⟨index, there, rfl⟩
      exact .jump there
    · intro named
      cases named with
      | jump there => exact ⟨_, there, rfl⟩
  | jumps targets =>
    rw [ScannedOperand.resolve, map_eq_ok]
    simp only [mapM_eq_ok_iff, boundary_eq_ok_iff ascending]
    constructor
    · rintro ⟨indices, there, rfl⟩
      exact .jumps there
    · intro named
      cases named with
      | jumps there => exact ⟨_, there, rfl⟩

/-! ## Writing -/

/-- A displacement exists just for the indices of instructions, and is the distance from the end of
the jump. -/
theorem displacementTo_eq_ok_iff {starts : List Nat} {next index : Nat} {displacement : Int} :
    displacementTo starts next index = .ok displacement ↔
      ∃ target : Nat, starts[index]? = some target ∧ displacement = (target : Int) - next := by
  rw [displacementTo]
  cases starts[index]? <;> simp [eq_comm]

/-- The displacements of a table are the distances to the starts its indices name. -/
private theorem mapM_displacementTo_eq_ok_iff {starts indices : List Nat} {next : Nat}
    {displacements : List Int} :
    indices.mapM (displacementTo starts next) = .ok displacements ↔
      ∃ targets, List.Forall₂ (fun target index => starts[index]? = some target) targets indices ∧
        displacements = distances next targets := by
  rw [mapM_eq_ok_iff]
  simp only [displacementTo_eq_ok_iff]
  constructor
  · intro related
    induction related with
    | nil => exact ⟨[], .nil, rfl⟩
    | cons head _ ih =>
      obtain ⟨target, there, rfl⟩ := head
      obtain ⟨targets, theres, rfl⟩ := ih
      exact ⟨target :: targets, .cons there theres, rfl⟩
  · rintro ⟨targets, theres, rfl⟩
    induction theres with
    | nil => exact .nil
    | cons there _ ih => exact .cons ⟨_, there, rfl⟩ ih

/-- A jump to an index is written just when the index has a start and the kind spells the jump to
it. -/
private theorem encodeOperand_target_iff {starts : List Nat} {offset index : Nat} {opcode : Opcode}
    {place : UInt32} {bytes : Bytes} :
    encodeOperand starts offset ⟨opcode, place, .target index⟩ = .ok bytes ↔
      ∃ target : Nat, starts[index]? = some target ∧ (ScannedOperand.jump target).Spells
        (offset + Instruction.size ⟨opcode, place, .target index⟩) opcode.operand bytes := by
  generalize next_eq : offset + Instruction.size ⟨opcode, place, .target index⟩ = next
  obtain ⟨value, name, kind⟩ := opcode
  dsimp only
  rw [encodeOperand]
  cases kind
  case shortBranch =>
    dsimp only
    rw [next_eq]
    simp only [bind_eq_ok, displacementTo_eq_ok_iff]
    constructor
    · rintro ⟨distance, ⟨target, there, rfl⟩, same⟩
      split at same
      next fits =>
        cases same
        exact ⟨target, there, .shortBranch target fits⟩
      next => cases same
    · rintro ⟨target, there, spells⟩
      cases spells with
      | shortBranch _ fits => exact ⟨_, ⟨target, there, rfl⟩, if_pos fits⟩
  case branch =>
    dsimp only
    rw [next_eq]
    simp only [bind_eq_ok, displacementTo_eq_ok_iff]
    constructor
    · rintro ⟨distance, ⟨target, there, rfl⟩, same⟩
      cases same
      exact ⟨target, there, .branch target⟩
    · rintro ⟨target, there, spells⟩
      cases spells with
      | branch => exact ⟨_, ⟨target, there, rfl⟩, rfl⟩
  -- no other kind takes a target
  all_goals
    constructor
    · intro same
      cases same
    · rintro ⟨target, there, spells⟩
      cases spells

/-- A switch over indices is written just when all of them have starts. -/
private theorem encodeOperand_switch_iff {starts indices : List Nat} {offset : Nat}
    {opcode : Opcode} {place : UInt32} {bytes : Bytes} :
    encodeOperand starts offset ⟨opcode, place, .switch indices⟩ = .ok bytes ↔
      ∃ targets, List.Forall₂ (fun target index => starts[index]? = some target) targets indices ∧
        (ScannedOperand.jumps targets).Spells
          (offset + Instruction.size ⟨opcode, place, .switch indices⟩) opcode.operand bytes := by
  generalize next_eq : offset + Instruction.size ⟨opcode, place, .switch indices⟩ = next
  obtain ⟨value, name, kind⟩ := opcode
  dsimp only
  rw [encodeOperand]
  cases kind
  case switch =>
    dsimp only
    rw [next_eq]
    simp only [bind_eq_ok, mapM_displacementTo_eq_ok_iff]
    constructor
    · rintro ⟨distances, ⟨targets, there, rfl⟩, same⟩
      cases same
      rw [← there.length_eq]
      exact ⟨targets, there, .switch targets⟩
    · rintro ⟨targets, there, spells⟩
      cases spells with
      | switch =>
        refine ⟨_, ⟨targets, there, rfl⟩, ?_⟩
        rw [← there.length_eq]
        rfl
  all_goals
    constructor
    · intro same
      cases same
    · rintro ⟨target, there, spells⟩
      cases spells

/-- An operand is written exactly when the operand it names, jumps by offset, spells the bytes. -/
theorem encodeOperand_eq_ok_iff {starts : List Nat} {offset : Nat} {instruction : Instruction}
    {bytes : Bytes} :
    encodeOperand starts offset instruction = .ok bytes ↔
      ∃ scanned : ScannedOperand, scanned.Names starts instruction.operand ∧
        scanned.Spells (offset + instruction.size) instruction.opcode.operand bytes := by
  obtain ⟨opcode, place, operand⟩ := instruction
  constructor
  · intro written
    cases operand
    case target index =>
      obtain ⟨target, there, spells⟩ := encodeOperand_target_iff.mp written
      exact ⟨_, .jump there, spells⟩
    case switch indices =>
      obtain ⟨targets, there, spells⟩ := encodeOperand_switch_iff.mp written
      exact ⟨_, .jumps there, spells⟩
    all_goals
      refine ⟨_, .immediate _, .immediate ?_⟩
      obtain ⟨value, name, kind⟩ := opcode
      cases kind <;> cases written
      rfl
  · rintro ⟨scanned, named, spells⟩
    cases named with
    | immediate =>
      obtain ⟨value, name, kind⟩ := opcode
      cases spells with
      | immediate spelled => cases kind <;> cases operand <;> cases spelled <;> rfl
    | jump there => exact encodeOperand_target_iff.mpr ⟨_, there, spells⟩
    | jumps there => exact encodeOperand_switch_iff.mpr ⟨_, there, spells⟩

end CilCapture.Il
