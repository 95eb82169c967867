import CilCapture.Il.Instruction

/-!
# Layout of a stream

Where each instruction starts when a stream is written without gaps. `layout` is the starts
followed by the size of the whole stream.
-/

namespace CilCapture.Il

/-- The offset of every instruction, the first one at `offset`. -/
def startsFrom : (offset : Nat) → List Instruction → List Nat
  | _, [] => []
  | offset, instruction :: rest => offset :: startsFrom (offset + instruction.size) rest

def starts (instructions : List Instruction) : List Nat := startsFrom 0 instructions

def codeSize : List Instruction → Nat
  | [] => 0
  | instruction :: rest => instruction.size + codeSize rest

/-- The offset of every instruction, then the size of the stream. -/
def layout (instructions : List Instruction) : List Nat :=
  starts instructions ++ [codeSize instructions]

@[simp] theorem length_startsFrom (offset : Nat) (instructions : List Instruction) :
    (startsFrom offset instructions).length = instructions.length := by
  induction instructions generalizing offset with
  | nil => rfl
  | cons instruction rest ih => simp [startsFrom, ih]

@[simp] theorem length_starts (instructions : List Instruction) :
    (starts instructions).length = instructions.length := length_startsFrom 0 instructions

end CilCapture.Il
