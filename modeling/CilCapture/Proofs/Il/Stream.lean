import CilCapture.Proofs.Il.Layout
import CilCapture.Proofs.Il.Operands

/-!
# Streams and their bytes

`Spelled` says how a list of instructions with jumps by byte offset stands in a string, gap-free and
in order. Reading a stream and writing one are both this relation: `scan_eq_ok_iff` adds that jumps
stay in reach, `encode_eq_ok_iff` that the offsets are named by indices of the laid-out stream, and
`decode_eq_ok_iff` has both.

The induction of `scan_eq_ok_iff` is on the fuel that the scan is given, of which there is as much
as bytes: each instruction takes one at least, so the fuel never runs out first. The other direction
needs no fuel, because writing follows the list.

Jumps are scanned as byte offsets and resolved only when all starts are known, so a stream is
described twice: by what stands in the bytes, and by the starts that its indices name. The two meet
in `Scanned.Names`.
-/

namespace CilCapture.Il

/-! ## Sizes -/

/-- The size of a scanned instruction is that of what it spells. -/
theorem Scanned.size_eq {scanned : Scanned} {next : Nat} {written : Bytes}
    (spells : scanned.operand.Spells next scanned.opcode.operand written) :
    scanned.size = scanned.opcode.size + written.length := by
  rw [spells.length_eq]
  rfl

/-- Naming starts by indices changes no size, so the instruction is as long as its bytes too. -/
theorem Instruction.size_eq {starts : List Nat} {instruction : Instruction}
    {operand : ScannedOperand} {next : Nat} {written : Bytes}
    (named : operand.Names starts instruction.operand)
    (spells : operand.Spells next instruction.opcode.operand written) :
    instruction.size = instruction.opcode.size + written.length := by
  obtain ⟨⟨value, name, kind⟩, place, complete⟩ := instruction
  rw [spells.length_eq, Instruction.size]
  dsimp only at named spells ⊢
  cases named with
  | immediate =>
    cases complete <;> try rfl
    -- A jump table is no immediate.
    cases spells with
    | immediate spelled => cases kind <;> cases spelled
  | jump => rfl
  | jumps there => rw [ScannedOperand.size, there.length_eq]

/-! ## Instructions in their bytes -/

/-- The instructions, of which the first stands at an offset, are spelled by the bytes. -/
inductive Spelled : (offset : Nat) → List Scanned → Bytes → Prop
  | nil (offset : Nat) : Spelled offset [] []
  | cons {opcode : Opcode} {offset : Nat} {operand : ScannedOperand} {written : Bytes}
      {rest : List Scanned} {tail : Bytes}
      (spells : operand.Spells (offset + opcode.size + written.length) opcode.operand written)
      (after : Spelled (offset + opcode.size + written.length) rest tail) :
      Spelled offset (⟨opcode, offset, operand⟩ :: rest) (opcode.encode ++ written ++ tail)

/-- An instruction that a reader takes: a known opcode, and jumps that stay in reach. -/
structure Scanned.Readable (total : Nat) (scanned : Scanned) : Prop where
  known : scanned.opcode ∈ Opcode.table
  reach : scanned.operand.InReach total (scanned.offset + scanned.size)

/-- An instruction that has its jumps by offset where another has them by index. -/
structure Scanned.Names (starts : List Nat) (scanned : Scanned) (instruction : Instruction) :
    Prop where
  opcode_eq : scanned.opcode = instruction.opcode
  operand : scanned.operand.Names starts instruction.operand

/-- Instructions by offset start where the ones they name are laid out. -/
theorem Spelled.map_offset {starts : List Nat} {offset : Nat} {scanned : List Scanned}
    {bytes : Bytes} {instructions : List Instruction} (spelled : Spelled offset scanned bytes)
    (named : List.Forall₂ (Scanned.Names starts) scanned instructions) :
    scanned.map Scanned.offset = startsFrom offset instructions := by
  induction spelled generalizing instructions with
  | nil =>
    cases named
    rfl
  | cons spells after ih =>
    obtain ⟨instruction, others, head, tail, rfl⟩ := List.forall₂_cons_left_iff.mp named
    obtain ⟨opcode_eq, operand⟩ := head
    dsimp only at opcode_eq operand
    subst opcode_eq
    rw [List.map_cons, startsFrom, ih tail, Instruction.size_eq operand spells, Nat.add_assoc]

/-- A stream and the bytes that spell it are of one length. -/
theorem Spelled.length_eq {starts : List Nat} {offset : Nat} {scanned : List Scanned}
    {bytes : Bytes} {instructions : List Instruction} (spelled : Spelled offset scanned bytes)
    (named : List.Forall₂ (Scanned.Names starts) scanned instructions) :
    bytes.length = codeSize instructions := by
  induction spelled generalizing instructions with
  | nil =>
    cases named
    rfl
  | cons spells after ih =>
    obtain ⟨instruction, others, head, tail, rfl⟩ := List.forall₂_cons_left_iff.mp named
    obtain ⟨opcode_eq, operand⟩ := head
    dsimp only at opcode_eq operand
    subst opcode_eq
    rw [codeSize, Instruction.size_eq operand spells, ← ih tail]
    simp [Nat.add_assoc]

/-- Each instruction ends inside the bytes that the stream spells. -/
theorem Spelled.end_le {offset : Nat} {scanned : List Scanned} {bytes : Bytes}
    (spelled : Spelled offset scanned bytes) :
    ∀ one ∈ scanned, one.offset + one.size ≤ offset + bytes.length := by
  induction spelled with
  | nil => exact fun one mem => absurd mem List.not_mem_nil
  | @cons opcode offset operand written rest tail spells after ih =>
    intro one mem
    rw [List.length_append, List.length_append, Opcode.length_encode]
    rcases List.mem_cons.mp mem with rfl | mem
    · rw [Scanned.size_eq spells]
      dsimp only
      omega
    · have := ih one mem
      omega

/-- The names that operands carry do not depend on the offsets beside them. -/
theorem forall₂_names_placedFrom {starts : List Nat} {scanned : List Scanned}
    {instructions : List Instruction}
    (named : List.Forall₂ (Scanned.Names starts) scanned instructions) (offset : Nat) :
    List.Forall₂ (Scanned.Names starts) scanned (placedFrom offset instructions) := by
  induction named generalizing offset with
  | nil => exact .nil
  | cons head _ ih => exact .cons ⟨head.opcode_eq, head.operand⟩ (ih _)

/-! ## Reading -/

/-- An instruction is taken off the front just when the front spells one that is readable: a known
opcode, an operand of its kind, and jumps inside the code. -/
theorem takeInstruction_eq_ok_iff {total offset : Nat} {bytes rest : Bytes} {scanned : Scanned} :
    takeInstruction total offset bytes = .ok (scanned, rest) ↔
      scanned.offset = offset ∧ scanned.Readable total ∧
        ∃ written, scanned.operand.Spells (offset + scanned.opcode.size + written.length)
            scanned.opcode.operand written ∧
          bytes = scanned.opcode.encode ++ written ++ rest := by
  rw [takeInstruction, bind_eq_ok]
  constructor
  · rintro ⟨⟨opcode, after⟩, head, same⟩
    obtain ⟨known, rfl⟩ := takeOpcode_eq_ok_iff.mp head
    rw [bind_eq_ok] at same
    obtain ⟨⟨operand, tail⟩, taken, same⟩ := same
    cases same
    obtain ⟨written, spells, reach, rfl⟩ := takeOperand_eq_ok_iff.mp taken
    refine ⟨rfl, ⟨known, ?_⟩, written, spells, by rw [List.append_assoc]⟩
    have size_eq : Scanned.size ⟨opcode, offset, operand⟩ = opcode.size + written.length :=
      Scanned.size_eq spells
    rwa [size_eq, ← Nat.add_assoc]
  · obtain ⟨opcode, place, operand⟩ := scanned
    rintro ⟨rfl, ⟨known, reach⟩, written, spells, rfl⟩
    rw [Scanned.size_eq spells, ← Nat.add_assoc] at reach
    refine ⟨(opcode, written ++ rest),
      takeOpcode_eq_ok_iff.mpr ⟨known, by rw [List.append_assoc]⟩, ?_⟩
    rw [bind_eq_ok]
    exact ⟨(operand, rest), takeOperand_eq_ok_iff.mpr ⟨written, spells, reach, rfl⟩, rfl⟩

/-- Nothing but the empty stream spells no bytes. -/
theorem Spelled.eq_nil {offset : Nat} {scanned : List Scanned}
    (spelled : Spelled offset scanned []) :
    scanned = [] := by
  generalize empty : ([] : Bytes) = bytes at spelled
  cases spelled with
  | nil => rfl
  | @cons opcode =>
    have positive := opcode.size_pos
    have none_left := congrArg List.length empty
    simp only [List.length_nil, List.length_append, Opcode.length_encode] at none_left
    omega

/-- The end of the code is read as the empty stream, and as no other. -/
private theorem ok_nil_iff {total offset : Nat} {scanned : List Scanned} :
    (.ok [] : Except Fault (List Scanned)) = .ok scanned ↔
      Spelled offset scanned [] ∧ ∀ one ∈ scanned, one.Readable total := by
  constructor
  · intro same
    cases same
    exact ⟨.nil offset, by simp⟩
  · rintro ⟨spelled, -⟩
    rw [spelled.eq_nil]

/-- With fuel for its bytes, a scan finds the instructions that the bytes spell. -/
theorem scanFrom_eq_ok_iff {total fuel offset : Nat} {bytes : Bytes} {scanned : List Scanned}
    (enough : bytes.length ≤ fuel) :
    scanFrom total fuel offset bytes = .ok scanned ↔
      Spelled offset scanned bytes ∧ ∀ one ∈ scanned, one.Readable total := by
  induction fuel generalizing offset bytes scanned with
  | zero =>
    cases List.length_eq_zero_iff.mp (Nat.le_zero.mp enough)
    exact ok_nil_iff
  | succ fuel ih =>
    cases bytes with
    | nil => exact ok_nil_iff
    | cons byte bytes =>
      rw [scanFrom, bind_eq_ok]
      case x_3 => exact List.cons_ne_nil byte bytes
      constructor
      · rintro ⟨⟨one, rest⟩, head, same⟩
        obtain ⟨rfl, readable, written, spells, split⟩ := takeInstruction_eq_ok_iff.mp head
        rw [bind_eq_ok] at same
        obtain ⟨others, tail, same⟩ := same
        cases same
        -- The opcode alone takes a byte, so the fuel left is enough for the rest.
        have positive := one.opcode.size_pos
        have length_eq := congrArg List.length split
        simp only [List.length_append, Opcode.length_encode] at length_eq
        rw [Scanned.size_eq spells, ← Nat.add_assoc] at tail
        obtain ⟨after, readables⟩ := (ih (by omega)).mp tail
        rw [split]
        exact ⟨.cons spells after, List.forall_mem_cons.mpr ⟨readable, readables⟩⟩
      · rintro ⟨spelled, readable⟩
        generalize split : byte :: bytes = whole at spelled
        cases spelled with
        | nil => cases split
        | @cons opcode _ operand written rest tail spells after =>
          obtain ⟨head, others⟩ := List.forall_mem_cons.mp readable
          have positive := opcode.size_pos
          have length_eq := congrArg List.length split
          simp only [List.length_append, Opcode.length_encode] at length_eq
          refine ⟨(⟨opcode, offset, operand⟩, tail),
            takeInstruction_eq_ok_iff.mpr ⟨rfl, head, written, spells, rfl⟩, ?_⟩
          rw [bind_eq_ok]
          refine ⟨rest, ?_, rfl⟩
          rw [Scanned.size_eq spells, ← Nat.add_assoc]
          exact (ih (by omega)).mpr ⟨after, others⟩

/-- A stream is scanned as the instructions that it spells, if each of them can be read. -/
theorem scan_eq_ok_iff {code : Bytes} {scanned : List Scanned} :
    scan code = .ok scanned ↔
      Spelled 0 scanned code ∧ ∀ one ∈ scanned, one.Readable code.length :=
  scanFrom_eq_ok_iff (Nat.le_refl _)

/-- No instruction stands in front of the place the stream begins at. -/
theorem Spelled.le_offset {offset : Nat} {scanned : List Scanned} {bytes : Bytes}
    (spelled : Spelled offset scanned bytes) : ∀ one ∈ scanned, offset ≤ one.offset := by
  induction spelled with
  | nil => exact fun one mem => absurd mem List.not_mem_nil
  | cons spells after ih =>
    intro one mem
    rcases List.mem_cons.mp mem with rfl | mem
    · exact Nat.le_refl _
    · have := ih one mem
      omega

/-- Scanned instructions stand one behind the other, which is what the binary search for boundaries
asks of them. -/
theorem Spelled.ascending {offset : Nat} {scanned : List Scanned} {bytes : Bytes}
    (spelled : Spelled offset scanned bytes) :
    (scanned.map Scanned.offset).Pairwise (· < ·) := by
  induction spelled with
  | nil => exact .nil
  | @cons opcode _ _ _ _ _ spells after ih =>
    refine .cons (fun start mem => ?_) ih
    obtain ⟨one, mem', rfl⟩ := List.mem_map.mp mem
    have positive := opcode.size_pos
    have := after.le_offset one mem'
    dsimp only
    omega

/-- Resolving gives the instruction that names the same starts and carries the scanned offset, and
fails only where there is none. -/
theorem Scanned.resolve_eq_ok_iff {starts : List Nat} (ascending : starts.Pairwise (· < ·))
    {scanned : Scanned} {instruction : Instruction} :
    scanned.resolve starts = .ok instruction ↔
      scanned.Names starts instruction ∧ instruction.offset = UInt32.ofNat scanned.offset := by
  rw [Scanned.resolve, bind_eq_ok]
  simp only [ScannedOperand.resolve_eq_ok_iff ascending]
  constructor
  · rintro ⟨operand, named, same⟩
    cases same
    exact ⟨⟨rfl, named⟩, rfl⟩
  · obtain ⟨opcode, place, operand⟩ := instruction
    rintro ⟨⟨rfl, named⟩, rfl⟩
    exact ⟨operand, named, rfl⟩

/-- A stream resolves instruction by instruction. -/
private theorem mapM_resolve_eq_ok_iff {starts : List Nat} (ascending : starts.Pairwise (· < ·))
    {scanned : List Scanned} {instructions : List Instruction} :
    scanned.mapM (Scanned.resolve starts) = .ok instructions ↔
      List.Forall₂ (Scanned.Names starts) scanned instructions ∧
        instructions.map (·.offset) = (scanned.map Scanned.offset).map UInt32.ofNat := by
  rw [mapM_eq_ok_iff, ← List.forall₂_eq_eq_eq, List.forall₂_map_left_iff,
    List.forall₂_map_right_iff, List.forall₂_map_right_iff]
  simp only [Scanned.resolve_eq_ok_iff ascending]
  constructor
  · intro both
    exact ⟨both.imp fun _ _ related => related.1,
      .flip (both.imp fun _ _ related => related.2)⟩
  · rintro ⟨named, placed⟩
    exact named.mp (fun _ _ head place => ⟨head, place⟩) placed.flip

/-- A stream is decoded as instructions whose jumps are named by the starts of their layout, and
which record these starts as words. -/
theorem decode_eq_ok_iff {code : Bytes} {instructions : List Instruction} :
    decode code = .ok instructions ↔
      (∃ scanned, Spelled 0 scanned code ∧ (∀ one ∈ scanned, one.Readable code.length) ∧
        List.Forall₂ (Scanned.Names (starts instructions)) scanned instructions) ∧
      instructions.map (·.offset) = (starts instructions).map UInt32.ofNat := by
  rw [decode, bind_eq_ok]
  constructor
  · rintro ⟨scanned, scan, resolved⟩
    obtain ⟨spelled, readable⟩ := scan_eq_ok_iff.mp scan
    obtain ⟨named, placed⟩ := (mapM_resolve_eq_ok_iff spelled.ascending).mp resolved
    have places : scanned.map Scanned.offset = starts instructions := spelled.map_offset named
    rw [places] at named placed
    exact ⟨⟨scanned, spelled, readable, named⟩, placed⟩
  · rintro ⟨⟨scanned, spelled, readable, named⟩, placed⟩
    have places : scanned.map Scanned.offset = starts instructions := spelled.map_offset named
    refine ⟨scanned, scan_eq_ok_iff.mpr ⟨spelled, readable⟩, ?_⟩
    rw [mapM_resolve_eq_ok_iff spelled.ascending, places]
    exact ⟨named, placed⟩

/-- Only known opcodes are decoded. -/
theorem known_of_decode {code : Bytes} {instructions : List Instruction}
    (decoded : decode code = .ok instructions) :
    ∀ instruction ∈ instructions, instruction.opcode ∈ Opcode.table := by
  obtain ⟨⟨scanned, -, readable, named⟩, -⟩ := decode_eq_ok_iff.mp decoded
  intro instruction mem
  obtain ⟨one, mem', names⟩ := exists_of_mem_right named mem
  rw [← names.opcode_eq]
  exact (readable one mem').known

/-! ## Writing -/

/-- Encoding succeeds just with the bytes that spell a stream whose starts the indices name. With
`scan_eq_ok_iff` it describes both directions by one relation. -/
theorem encodeFrom_eq_ok_iff {starts : List Nat} {offset : Nat} {instructions : List Instruction}
    {bytes : Bytes} :
    encodeFrom starts offset instructions = .ok bytes ↔
      ∃ scanned, Spelled offset scanned bytes ∧
        List.Forall₂ (Scanned.Names starts) scanned instructions := by
  induction instructions generalizing offset bytes with
  | nil =>
    rw [encodeFrom]
    constructor
    · intro same
      cases same
      exact ⟨[], .nil offset, .nil⟩
    · rintro ⟨scanned, spelled, named⟩
      cases named
      cases spelled
      rfl
  | cons instruction rest ih =>
    rw [encodeFrom, bind_eq_ok]
    constructor
    · rintro ⟨written, head, same⟩
      rw [bind_eq_ok] at same
      obtain ⟨tail, after, same⟩ := same
      cases same
      obtain ⟨operand, named, spells⟩ := encodeOperand_eq_ok_iff.mp head
      -- the size of the instruction is what was written, so the rest starts where it says
      rw [Instruction.size_eq named spells, ← Nat.add_assoc] at spells after
      obtain ⟨scanned, spelled, others⟩ := ih.mp after
      exact ⟨⟨instruction.opcode, offset, operand⟩ :: scanned, .cons spells spelled,
        .cons ⟨rfl, named⟩ others⟩
    · rintro ⟨scanned, spelled, named⟩
      obtain ⟨one, others, head, tail, rfl⟩ := List.forall₂_cons_right_iff.mp named
      cases spelled with
      | @cons opcode _ operand written _ bytes spells after =>
        obtain ⟨opcode_eq, head⟩ := head
        dsimp only at opcode_eq head
        subst opcode_eq
        have size_eq := Instruction.size_eq head spells
        refine ⟨written, encodeOperand_eq_ok_iff.mpr ⟨operand, head, ?_⟩, ?_⟩
        · rwa [size_eq, ← Nat.add_assoc]
        · rw [bind_eq_ok]
          refine ⟨bytes, ih.mpr ⟨others, ?_, tail⟩, rfl⟩
          rwa [size_eq, ← Nat.add_assoc]

/-- A stream is written as the bytes that spell it, jumps named by the starts of its layout. -/
theorem encode_eq_ok_iff {instructions : List Instruction} {code : Bytes} :
    encode instructions = .ok code ↔
      ∃ scanned, Spelled 0 scanned code ∧
        List.Forall₂ (Scanned.Names (starts instructions)) scanned instructions :=
  encodeFrom_eq_ok_iff

end CilCapture.Il
