import CilCapture.Proofs.Il.Stream

/-!
# Reading and writing streams

Writing undoes reading on every string that is a stream (`encode_of_decode`): the layout is where
the instructions stood, so every displacement comes out as it was. Reading undoes writing on every
list of known instructions (`decode_of_encode`), and what cannot be written is said without the
writer, by `Encodable`.

Both directions come out of the relation of `Stream`. To write what was read, one has to see that
the layout of the instructions read is where they stood. To read what was written, one has to see
that what the writer lets pass is in reach of the reader (`readable_of_encode`); this is where code
has to be shorter than a displacement of 32 bits can span.

`Encodable` asks for no more than has to be: each operand is of its opcode's kind, each index names
an instruction, and a short branch is not too far from its target. The offsets that instructions
carry do not occur in it.
-/

namespace CilCapture.Il

/-! ## Writing what was read -/

/-- What a stream was decoded to is laid out where it stood and is written as the same bytes. An
instruction records its offset in a word, so beyond what a word counts the record is the low
bits. -/
theorem encode_of_decode {code : Bytes} {instructions : List Instruction}
    (decoded : decode code = .ok instructions) :
    layout instructions = starts instructions ++ [code.length] ∧
      instructions.map (·.offset) = (starts instructions).map UInt32.ofNat ∧
      (code.length ≤ 0x100000000 →
        layout instructions = instructions.map (·.offset.toNat) ++ [code.length]) ∧
      encode instructions = .ok code := by
  obtain ⟨⟨scanned, spelled, -, named⟩, placed⟩ := decode_eq_ok_iff.mp decoded
  have size_eq : code.length = codeSize instructions := spelled.length_eq named
  have laid : layout instructions = starts instructions ++ [code.length] := by
    rw [layout, size_eq]
  refine ⟨laid, placed, fun small => ?_, encode_eq_ok_iff.mpr ⟨scanned, spelled, named⟩⟩
  have recorded : instructions.map (·.offset.toNat) = starts instructions := by
    rw [← map_toNat_starts (size_eq ▸ small), ← placed, List.map_map]
    rfl
  rw [recorded, laid]

/-- A short branch forward, an empty jump table, a two-byte opcode, a jump table that goes both ways
and a branch back. -/
def jumping : List Instruction := [
  ⟨⟨0x2B, "br.s", .shortBranch⟩, 0, .target 2⟩,
  ⟨⟨0x45, "switch", .switch⟩, 2, .switch []⟩,
  ⟨⟨0xFE01, "ceq", .none⟩, 7, .none⟩,
  ⟨⟨0x45, "switch", .switch⟩, 9, .switch [0, 5]⟩,
  ⟨⟨0x38, "br", .branch⟩, 22, .target 2⟩,
  ⟨⟨0x2A, "ret", .none⟩, 27, .none⟩
]

/-- The bytes of `jumping`. -/
def jumpingBytes : Bytes := [0x2B, 0x05, 0x45, 0, 0, 0, 0, 0xFE, 0x01, 0x45, 2, 0, 0, 0, 0xEA, 0xFF,
  0xFF, 0xFF, 5, 0, 0, 0, 0x38, 0xEC, 0xFF, 0xFF, 0xFF, 0x2A]

/-- A stream with a short branch, a branch and a switch, there and back. -/
theorem encode_of_decode_jumping : decode jumpingBytes = .ok jumping ∧
    layout jumping = [0, 2, 7, 9, 22, 27, 28] ∧ encode jumping = .ok jumpingBytes := by
  have decoded : decode jumpingBytes = .ok jumping := by decide +kernel
  obtain ⟨-, -, laid, encoded⟩ := encode_of_decode decoded
  exact ⟨decoded, laid (by decide), encoded⟩

/-! ## Reading what was written -/

/-- Whether an operand has the form that a kind asks for. -/
def Operand.IsOf : Operand → OperandKind → Prop
  | .none, .none | .int8 _, .int8 | .uint8 _, .uint8 | .uint16 _, .uint16 | .int32 _, .int32
  | .int64 _, .int64 | .float32 _, .float32 | .float64 _, .float64 | .token _, .token
  | .target _, .shortBranch | .target _, .branch | .switch _, .switch => True
  | _, _ => False

/-- The indices that an operand jumps to. -/
def Operand.targets : Operand → List Nat
  | .target index => [index]
  | .switch indices => indices
  | _ => []

/-- Instructions that a stream can hold. -/
structure Encodable (instructions : List Instruction) : Prop where
  /-- Every operand has the form that its opcode asks for. -/
  kinds : ∀ instruction ∈ instructions, instruction.operand.IsOf instruction.opcode.operand
  /-- Every jump goes to an instruction. -/
  targets : ∀ instruction ∈ instructions, ∀ index ∈ instruction.operand.targets,
    index < instructions.length
  /-- Every short branch goes no further, from the next instruction, than a signed byte counts. -/
  reach : ∀ (place : Nat) instruction, instructions[place]? = some instruction →
    instruction.opcode.operand = .shortBranch → ∀ index ∈ instruction.operand.targets,
    ∀ start next : Nat, (layout instructions)[index]? = some start →
      (layout instructions)[place + 1]? = some next → FitsByte ((start : Int) - next)

/-- What is written as a plain operand is of that kind and jumps nowhere. -/
private theorem isOf_of_immediateBytes? {kind : OperandKind} {operand : Operand} {bytes : Bytes}
    (spelled : operand.immediateBytes? kind = some bytes) :
    operand.IsOf kind ∧ operand.targets = [] := by
  cases kind <;> cases operand <;> cases spelled <;> exact ⟨trivial, rfl⟩

/-- Indices inside the stream all name starts. -/
private theorem exists_starts {starts indices : List Nat}
    (inside : ∀ index ∈ indices, index < starts.length) :
    ∃ targets, List.Forall₂ (fun target index => starts[index]? = some target) targets indices := by
  induction indices with
  | nil => exact ⟨[], .nil⟩
  | cons index indices ih =>
    obtain ⟨head, tail⟩ := List.forall_mem_cons.mp inside
    obtain ⟨targets, there⟩ := ih tail
    exact ⟨starts[index] :: targets, .cons (List.getElem?_eq_getElem head) there⟩

/-- One operand is written just when it is of the opcode's kind, all its indices name instructions,
and a short branch does not have too far to go. -/
private theorem encodeOperand_isOk_iff {starts : List Nat} {offset : Nat}
    {instruction : Instruction} :
    (∃ bytes, encodeOperand starts offset instruction = .ok bytes) ↔
      instruction.operand.IsOf instruction.opcode.operand ∧
      (∀ index ∈ instruction.operand.targets, index < starts.length) ∧
      (instruction.opcode.operand = .shortBranch → ∀ index ∈ instruction.operand.targets,
        ∀ start : Nat, starts[index]? = some start →
          FitsByte ((start : Int) - (offset + instruction.size : Nat))) := by
  simp only [encodeOperand_eq_ok_iff]
  generalize offset + instruction.size = next
  obtain ⟨⟨value, name, kind⟩, place, operand⟩ := instruction
  dsimp only
  constructor
  · rintro ⟨bytes, scanned, named, spells⟩
    cases named with
    | immediate =>
      cases spells with
      | immediate spelled =>
        obtain ⟨form, none_left⟩ := isOf_of_immediateBytes? spelled
        simp [form, none_left]
    -- a jump carries a place and an index, and `there` says that the one is the start of the other
    | @jump target index there =>
      have inside : index < starts.length := (List.getElem?_eq_some_iff.mp there).1
      cases spells with
      | shortBranch _ fits =>
        refine ⟨trivial, by simpa [Operand.targets] using inside,
          fun _ other mem start there' => ?_⟩
        cases List.mem_singleton.mp mem
        cases there.symm.trans there'
        exact fits
      | branch =>
        exact ⟨trivial, by simpa [Operand.targets] using inside, fun short => nomatch short⟩
    | @jumps targets indices there =>
      cases spells with
      | switch =>
        refine ⟨trivial, fun index mem => ?_, fun short => nomatch short⟩
        obtain ⟨target, -, here⟩ := exists_of_mem_right there mem
        exact (List.getElem?_eq_some_iff.mp here).1
  -- back: an operand has to be of the form that its opcode announces, which leaves one kind or none
  · rintro ⟨form, inside, close⟩
    cases operand
    case target index =>
      have inside : index < starts.length := inside index (List.mem_singleton_self index)
      have there : starts[index]? = some starts[index] := List.getElem?_eq_getElem inside
      cases kind <;> try cases form
      case shortBranch =>
        have fits := close rfl index (List.mem_singleton_self index) _ there
        exact ⟨_, _, .jump there, .shortBranch _ fits⟩
      case branch => exact ⟨_, _, .jump there, .branch _⟩
    case switch indices =>
      obtain ⟨targets, there⟩ := exists_starts inside
      cases kind <;> try cases form
      exact ⟨_, _, .jumps there, .switch targets⟩
    all_goals
      cases kind <;> try cases form
      exact ⟨_, _, .immediate _, .immediate rfl⟩

/-- A stream is written just when each operand is, at the place its instruction starts. -/
private theorem encodeFrom_isOk_iff {starts : List Nat} {offset : Nat}
    {instructions : List Instruction} :
    (∃ bytes, encodeFrom starts offset instructions = .ok bytes) ↔
      ∀ (place : Nat) instruction (start : Nat), instructions[place]? = some instruction →
        (startsFrom offset instructions)[place]? = some start →
        ∃ bytes, encodeOperand starts start instruction = .ok bytes := by
  induction instructions generalizing offset with
  | nil =>
    constructor
    · rintro - place instruction start ⟨⟩
    · exact fun _ => ⟨[], rfl⟩
  | cons first rest ih =>
    simp only [encodeFrom, bind_eq_ok]
    constructor
    · rintro ⟨bytes, written, head, tail, after, -⟩ place instruction start here there
      cases place with
      | zero =>
        cases here
        cases there
        exact ⟨written, head⟩
      | succ place => exact ih.mp ⟨tail, after⟩ place instruction start here there
    · intro each
      obtain ⟨written, head⟩ := each 0 first offset rfl rfl
      obtain ⟨tail, after⟩ := ih.mpr fun place => each (place + 1)
      exact ⟨_, written, head, tail, after, rfl⟩

/-- The streams that can be written are the encodable ones. -/
private theorem encode_isOk_iff {instructions : List Instruction} :
    (∃ bytes, encode instructions = .ok bytes) ↔ Encodable instructions := by
  rw [encode, encodeFrom_isOk_iff]
  simp only [encodeOperand_isOk_iff, length_starts]
  -- where an instruction ends the next one starts, in the layout as in the distances
  have laid {place : Nat} {instruction : Instruction} {start : Nat}
      (here : instructions[place]? = some instruction)
      (there : (starts instructions)[place]? = some start) :
      (layout instructions)[place + 1]? = some (start + instruction.size) := by
    have := getElem?_layout_succ here there
    rwa [Nat.zero_add] at this
  have start_of {place : Nat} {instruction : Instruction}
      (here : instructions[place]? = some instruction) :
      ∃ start, (starts instructions)[place]? = some start := by
    obtain ⟨inside, -⟩ := List.getElem?_eq_some_iff.mp here
    rw [← length_starts] at inside
    exact ⟨_, List.getElem?_eq_getElem inside⟩
  constructor
  · intro each
    refine ⟨fun instruction mem => ?_, fun instruction mem => ?_, ?_⟩
    · obtain ⟨place, here⟩ := List.mem_iff_getElem?.mp mem
      obtain ⟨start, there⟩ := start_of here
      exact (each place instruction start here there).1
    · obtain ⟨place, here⟩ := List.mem_iff_getElem?.mp mem
      obtain ⟨start, there⟩ := start_of here
      exact (each place instruction start here there).2.1
    · intro place instruction here short index mem start next at_start at_next
      obtain ⟨own, there⟩ := start_of here
      obtain ⟨-, inside, close⟩ := each place instruction own here there
      cases at_next.symm.trans (laid here there)
      refine close short index mem start ?_
      rwa [layout, List.getElem?_append_left] at at_start
      rw [length_starts]
      exact inside index mem
  · rintro ⟨kinds, targets, reach⟩ place instruction start here there
    have mem := List.mem_of_getElem? here
    refine ⟨kinds instruction mem, targets instruction mem, ?_⟩
    intro short index mem' target at_target
    refine reach place instruction here short index mem' target _ ?_ (laid here there)
    rw [layout, List.getElem?_append_left]
    · exact at_target
    · rw [length_starts]
      exact targets instruction mem index mem'

/-- The targets that an operand names are starts of instructions. -/
private theorem mem_starts_of_names {starts : List Nat} {scanned : ScannedOperand}
    {operand : Operand} (named : scanned.Names starts operand) :
    ∀ target ∈ scanned.targets, target ∈ starts := by
  intro target mem
  cases named with
  | immediate => cases mem
  | jump there =>
    cases List.mem_singleton.mp mem
    exact List.mem_of_getElem? there
  | jumps there =>
    obtain ⟨index, -, here⟩ := exists_of_mem_left there mem
    exact List.mem_of_getElem? here

/-- An instruction has no more targets than bytes, so the count of a switch fits its field. -/
private theorem length_targets_le (scanned : Scanned) :
    scanned.operand.targets.length ≤ scanned.size := by
  obtain ⟨opcode, offset, operand⟩ := scanned
  have positive := opcode.size_pos
  cases operand <;> simp only [Scanned.size, ScannedOperand.targets, List.length_nil,
    List.length_singleton] <;> omega

/-- What is written of known instructions can be read, if words hold every distance. -/
private theorem readable_of_encode {instructions : List Instruction} {bytes : Bytes}
    {scanned : List Scanned}
    (known : ∀ instruction ∈ instructions, instruction.opcode ∈ Opcode.table)
    (small : codeSize instructions < 0x80000000) (spelled : Spelled 0 scanned bytes)
    (named : List.Forall₂ (Scanned.Names (starts instructions)) scanned instructions) :
    ∀ one ∈ scanned, one.Readable bytes.length := by
  intro one mem
  obtain ⟨instruction, mem', head⟩ := exists_of_mem_left named mem
  have size_eq := spelled.length_eq named
  have end_le := spelled.end_le one mem
  have count_le := length_targets_le one
  have inside : ∀ target ∈ one.operand.targets, target < bytes.length := by
    intro target mem
    rw [size_eq]
    exact lt_codeSize_of_mem_starts (mem_starts_of_names head.operand target mem)
  refine ⟨?_, by omega, inside, fun target mem => ?_⟩
  · rw [head.opcode_eq]
    exact known instruction mem'
  -- Both ends of a jump lie below 2 ^ 31.
  · have := inside target mem
    unfold FitsWord
    omega

/-- What is written of known instructions is read as these instructions with their offsets
recorded. -/
theorem decode_eq_placedFrom {instructions : List Instruction} {bytes : Bytes}
    (known : ∀ instruction ∈ instructions, instruction.opcode ∈ Opcode.table)
    (small : codeSize instructions < 0x80000000) (encoded : encode instructions = .ok bytes) :
    decode bytes = .ok (placedFrom 0 instructions) := by
  obtain ⟨scanned, spelled, named⟩ := encode_eq_ok_iff.mp encoded
  have readable := readable_of_encode known small spelled named
  rw [decode_eq_ok_iff, starts, startsFrom_placedFrom]
  exact ⟨⟨scanned, spelled, readable, forall₂_names_placedFrom named 0⟩,
    map_offset_placedFrom 0 instructions⟩

/-- A list of known instructions is written exactly when it is encodable, and then what is read back
has the same opcodes and operands, so every jump names the same instruction, each instruction with
the offset that the layout gives it. -/
theorem decode_of_encode {instructions : List Instruction}
    (known : ∀ instruction ∈ instructions, instruction.opcode ∈ Opcode.table)
    (small : codeSize instructions < 0x80000000) :
    ((∃ bytes, encode instructions = .ok bytes) ↔ Encodable instructions) ∧
      ∀ bytes, encode instructions = .ok bytes → ∃ decoded, decode bytes = .ok decoded ∧
        decoded.map (·.opcode) = instructions.map (·.opcode) ∧
        decoded.map (·.operand) = instructions.map (·.operand) ∧
        decoded.map (·.offset.toNat) = starts instructions := by
  refine ⟨encode_isOk_iff, fun bytes encoded => ?_⟩
  obtain ⟨scanned, spelled, named⟩ := encode_eq_ok_iff.mp encoded
  have same : starts (placedFrom 0 instructions) = starts instructions :=
    startsFrom_placedFrom 0 0 instructions
  have placed := map_offset_placedFrom 0 instructions
  refine ⟨placedFrom 0 instructions, ?_, map_opcode_placedFrom 0 _, map_operand_placedFrom 0 _, ?_⟩
  · rw [decode_eq_ok_iff, same]
    refine ⟨⟨scanned, spelled, ?_, forall₂_names_placedFrom named 0⟩, placed⟩
    exact readable_of_encode known small spelled named
  · have recorded : (placedFrom 0 instructions).map (·.offset.toNat) =
        ((starts instructions).map UInt32.ofNat).map UInt32.toNat := by
      rw [starts, ← placed, List.map_map]
      rfl
    rw [recorded, map_toNat_starts (by omega)]

/-- `jumping` with an instruction put in before the third and the indices behind it moved. -/
def edited : List Instruction := [
  ⟨⟨0x2B, "br.s", .shortBranch⟩, 0, .target 3⟩,
  ⟨⟨0x45, "switch", .switch⟩, 2, .switch []⟩,
  ⟨⟨0x00, "nop", .none⟩, 0, .none⟩,
  ⟨⟨0xFE01, "ceq", .none⟩, 7, .none⟩,
  ⟨⟨0x45, "switch", .switch⟩, 9, .switch [0, 6]⟩,
  ⟨⟨0x38, "br", .branch⟩, 22, .target 3⟩,
  ⟨⟨0x2A, "ret", .none⟩, 27, .none⟩
]

/-- The inserted instruction leaves the offsets behind it stale; encoding does not look at them, and
decoding sets them right. -/
theorem decode_of_encode_edited :
    (∀ instruction ∈ edited, instruction.opcode ∈ Opcode.table) ∧ codeSize edited < 0x80000000 ∧
      Encodable edited ∧ ∃ bytes decoded, encode edited = .ok bytes ∧ decode bytes = .ok decoded ∧
        decoded.map (·.operand) =
          [.target 3, .switch [], .none, .none, .switch [0, 6], .target 3, .none] ∧
        decoded.map (·.offset.toNat) = [0, 2, 7, 8, 10, 23, 28] := by
  have known : ∀ instruction ∈ edited, instruction.opcode ∈ Opcode.table := by decide +kernel
  have small : codeSize edited < 0x80000000 := by decide
  have encoded : encode edited = .ok [0x2B, 0x06, 0x45, 0, 0, 0, 0, 0x00, 0xFE, 0x01, 0x45, 2, 0, 0,
      0, 0xE9, 0xFF, 0xFF, 0xFF, 5, 0, 0, 0, 0x38, 0xEC, 0xFF, 0xFF, 0xFF, 0x2A] := by
    decide +kernel
  obtain ⟨written_iff, read⟩ := decode_of_encode known small
  obtain ⟨decoded, decoding, -, operands, offsets⟩ := read _ encoded
  exact ⟨known, small, written_iff.mp ⟨_, encoded⟩, _, decoded, encoded, decoding, operands,
    offsets⟩

end CilCapture.Il
