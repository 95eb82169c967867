import CilCapture.Il.Layout
import CilCapture.Proofs.Il.OpcodeTable

/-!
# Layouts ascend

Every instruction takes at least one byte, so the starts of a stream ascend strictly and lie below
its size (`startsFrom_ascending`, `mem_startsFrom`). That is what makes a start name one
instruction. A layout depends on opcodes and operands alone, so `placedFrom`, which records it in
the instructions, changes none.

The proofs are by induction on the instructions with the offset of the first one left open, since
the start of each is known only from those before it.

An offset that an instruction carries is a field of 32 bits and may be anything at all in a list
that was edited. Nothing here reads it. In code of at most 4 GiB the field can hold every start
(`map_toNat_starts`), which is where the offsets after decoding are those of the layout.
-/

namespace CilCapture.Il

/-- Every instruction takes some room, because its opcode does. -/
theorem Instruction.size_pos (instruction : Instruction) : 0 < instruction.size :=
  Nat.lt_of_lt_of_le instruction.opcode.size_pos (Nat.le_add_right _ _)

/-- Instructions start inside the code that they make up. -/
theorem mem_startsFrom {offset start : Nat} {instructions : List Instruction}
    (mem : start ∈ startsFrom offset instructions) :
    offset ≤ start ∧ start < offset + codeSize instructions := by
  induction instructions generalizing offset with
  | nil => cases mem
  | cons instruction rest ih =>
    have positive := instruction.size_pos
    rw [codeSize]
    rcases List.mem_cons.mp mem with rfl | mem
    · omega
    · have := ih mem
      omega

/-- One instruction starts behind another, never at the same place. A start is therefore found under
one index only. -/
theorem startsFrom_ascending (offset : Nat) (instructions : List Instruction) :
    (startsFrom offset instructions).Pairwise (· < ·) := by
  induction instructions generalizing offset with
  | nil => exact .nil
  | cons instruction rest ih =>
    refine .cons (fun start mem => ?_) (ih _)
    have positive := instruction.size_pos
    have := mem_startsFrom mem
    omega

/-- An instruction starts before the end of the code. -/
theorem lt_codeSize_of_mem_starts {start : Nat} {instructions : List Instruction}
    (mem : start ∈ starts instructions) : start < codeSize instructions := by
  have := mem_startsFrom mem
  omega

/-- The layout, with the end of the code as its last boundary, is strictly ascending as well. -/
theorem layout_ascending (instructions : List Instruction) :
    (layout instructions).Pairwise (· < ·) := by
  rw [layout, List.pairwise_append]
  refine ⟨startsFrom_ascending 0 instructions, List.pairwise_singleton _ _, ?_⟩
  intro start mem size same
  rw [List.mem_singleton.mp same]
  exact lt_codeSize_of_mem_starts mem

/-- What a layout gives after an instruction is where the instruction ends. -/
theorem getElem?_layout_succ {offset place start : Nat} {instructions : List Instruction}
    {instruction : Instruction} (here : instructions[place]? = some instruction)
    (starts : (startsFrom offset instructions)[place]? = some start) :
    (startsFrom offset instructions ++ [offset + codeSize instructions])[place + 1]? =
      some (start + instruction.size) := by
  induction instructions generalizing offset place with
  | nil => cases here
  | cons first rest ih =>
    rw [startsFrom, codeSize, List.cons_append, List.getElem?_cons_succ, ← Nat.add_assoc]
    cases place with
    | zero =>
      cases here
      cases starts
      cases rest <;> rfl
    | succ place => exact ih here starts

/-- The instructions with their offsets recorded, the first one at `offset`. -/
def placedFrom : (offset : Nat) → List Instruction → List Instruction
  | _, [] => []
  | offset, instruction :: rest =>
    { instruction with offset := UInt32.ofNat offset } ::
      placedFrom (offset + instruction.size) rest

/-- Placing a stream gives its instructions offsets and leaves their opcodes alone. -/
theorem map_opcode_placedFrom (offset : Nat) (instructions : List Instruction) :
    (placedFrom offset instructions).map (·.opcode) = instructions.map (·.opcode) := by
  induction instructions generalizing offset with
  | nil => rfl
  | cons instruction rest ih => rw [placedFrom, List.map_cons, List.map_cons, ih]

/-- Placing a stream leaves the operands alone. -/
theorem map_operand_placedFrom (offset : Nat) (instructions : List Instruction) :
    (placedFrom offset instructions).map (·.operand) = instructions.map (·.operand) := by
  induction instructions generalizing offset with
  | nil => rfl
  | cons instruction rest ih => rw [placedFrom, List.map_cons, List.map_cons, ih]

/-- The offsets of a placed stream are its starts, in the width of the field. -/
theorem map_offset_placedFrom (offset : Nat) (instructions : List Instruction) :
    (placedFrom offset instructions).map (·.offset) =
      (startsFrom offset instructions).map UInt32.ofNat := by
  induction instructions generalizing offset with
  | nil => rfl
  | cons instruction rest ih => rw [placedFrom, startsFrom, List.map_cons, List.map_cons, ih]

/-- Where instructions start depends on their sizes only, not on the offsets they carry. -/
theorem startsFrom_placedFrom (offset offset' : Nat) (instructions : List Instruction) :
    startsFrom offset (placedFrom offset' instructions) = startsFrom offset instructions := by
  induction instructions generalizing offset offset' with
  | nil => rfl
  | cons instruction rest ih =>
    rw [placedFrom, startsFrom, startsFrom, ih]
    rfl

/-- A placed stream is as long as it was. -/
theorem codeSize_placedFrom (offset : Nat) (instructions : List Instruction) :
    codeSize (placedFrom offset instructions) = codeSize instructions := by
  induction instructions generalizing offset with
  | nil => rfl
  | cons instruction rest ih =>
    rw [placedFrom, codeSize, codeSize, ih]
    rfl

/-- Placing a stream leaves its layout as it is, so that clauses are read the same before and after.
-/
theorem layout_placedFrom (offset : Nat) (instructions : List Instruction) :
    layout (placedFrom offset instructions) = layout instructions := by
  rw [layout, layout, starts, starts, startsFrom_placedFrom, codeSize_placedFrom]

/-- In code of at most 4 GiB the offset field holds every start in full. -/
theorem map_toNat_starts {instructions : List Instruction}
    (small : codeSize instructions ≤ 0x100000000) :
    ((starts instructions).map UInt32.ofNat).map UInt32.toNat = starts instructions := by
  have same : ∀ start ∈ starts instructions, (UInt32.toNat ∘ UInt32.ofNat) start = start := by
    intro start mem
    have := lt_codeSize_of_mem_starts mem
    rw [Function.comp_apply, UInt32.toNat_ofNat']
    omega
  rw [List.map_map, List.map_congr_left same, List.map_id']

end CilCapture.Il
