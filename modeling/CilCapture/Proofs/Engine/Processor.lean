import Mathlib.Logic.Relation
import CilCapture.Engine.Adapter
import CilCapture.Proofs.Bytes

/-!
# The processor that runs adapters

Adapters are bytes, and what they do is what a 32-bit processor does with them. `Processor` has the
registers that adapters name, the stack in words and the place of the next instruction; `step`
fetches an instruction from memory, byte by byte, and carries it out. Nothing else is modelled: at
any other opcode, and where a word is popped of an empty stack, the processor is stuck.

Code that lies in memory is run instruction by instruction (`reaches_of_runThrough`), so what it
does is computed from its list of instructions, wherever it lies.

Memory answers byte by byte and may hold nothing at an address. Addresses wrap at 32 bits, as the
sums of the code do, so an adapter that lies across the end of the address space is run like any
other.
-/

namespace CilCapture.Engine

/-- The bytes of a 32-bit address space that hold code. -/
abbrev CodeMemory := UInt32 → Option UInt8

structure Processor where
  /-- Where the next instruction lies. -/
  next : UInt32
  register : Register → UInt32
  /-- The words of the stack, the top first. -/
  stack : List UInt32

namespace CodeMemory

/-- The bytes from an address on. -/
def read (code : CodeMemory) : (count : Nat) → UInt32 → Option Bytes
  | 0, _ => some []
  | count + 1, address => do
    let byte ← code address
    let rest ← code.read count (address + 1)
    return byte :: rest

/-- The instruction at an address, with the address behind it. -/
def fetch (code : CodeMemory) (address : UInt32) : Option (AdapterStep × UInt32) := do
  match ← code address with
  | 0x50 => return (.push .eax, address + 1)
  | 0x51 => return (.push .ecx, address + 1)
  | 0x52 => return (.push .edx, address + 1)
  | 0x58 => return (.pop .eax, address + 1)
  | 0x59 => return (.pop .ecx, address + 1)
  | 0x5A => return (.pop .edx, address + 1)
  | 0x68 =>
    let operand ← code.read 4 (address + 1)
    return (.pushImmediate (UInt32.ofNat operand.toNat), address + 5)
  | 0xC3 => return (.ret, address + 1)
  | _ => none

/-- Memory that holds bytes from an address on. -/
def Holds (code : CodeMemory) : UInt32 → Bytes → Prop
  | _, [] => True
  | address, byte :: rest => code address = some byte ∧ code.Holds (address + 1) rest

end CodeMemory

namespace Processor

/-- The processor with another value in a register. -/
def set (processor : Processor) (register : Register) (value : UInt32) : Processor :=
  { processor with
    register := fun other => if other = register then value else processor.register other }

/-- Carries out an instruction behind which the code goes on at `behind`. -/
def carryOut (behind : UInt32) (processor : Processor) : AdapterStep → Option Processor
  | .pop register =>
    match processor.stack with
    | [] => none
    | top :: stack => some { processor.set register top with next := behind, stack }
  | .push register =>
    some { processor with
      next := behind, stack := processor.register register :: processor.stack }
  | .pushImmediate value =>
    some { processor with next := behind, stack := value :: processor.stack }
  | .ret =>
    match processor.stack with
    | [] => none
    | top :: stack => some { processor with next := top, stack }

def step (code : CodeMemory) (processor : Processor) : Option Processor := do
  let (instruction, behind) ← code.fetch processor.next
  processor.carryOut behind instruction

/-- The processor comes to a state in some number of steps. -/
def Reaches (code : CodeMemory) : Processor → Processor → Prop :=
  Relation.ReflTransGen fun before after => before.step code = some after

end Processor

/-! ## Code in memory -/

namespace CodeMemory

variable {code : CodeMemory}

/-- Code in two parts lies one part behind the other. -/
theorem holds_append {address : UInt32} {first second : Bytes} :
    code.Holds address (first ++ second) ↔
      code.Holds address first ∧ code.Holds (address + UInt32.ofNat first.length) second := by
  induction first generalizing address with
  | nil => simp [Holds]
  | cons byte first ih =>
    have behind : address + 1 + UInt32.ofNat first.length =
        address + UInt32.ofNat (first.length + 1) := by
      rw [UInt32.ofNat_add, UInt32.add_assoc, UInt32.add_comm 1]
      rfl
    simp only [List.cons_append, Holds, ih, List.length_cons, behind, and_assoc]

/-- Bytes that code holds are read where they lie. -/
theorem read_of_holds {address : UInt32} {bytes : Bytes} (held : code.Holds address bytes) :
    code.read bytes.length address = some bytes := by
  induction bytes generalizing address with
  | nil => rfl
  | cons byte bytes ih =>
    obtain ⟨here, rest⟩ := held
    simp [read, here, ih rest]

/-- Every instruction is fetched as it was encoded. -/
theorem fetch_of_holds {address : UInt32} {instruction : AdapterStep}
    (held : code.Holds address instruction.encode) :
    code.fetch address =
      some (instruction, address + UInt32.ofNat instruction.encode.length) := by
  cases instruction with
  | pop register => cases register <;> simp [fetch, held.1] <;> rfl
  | push register => cases register <;> simp [fetch, held.1] <;> rfl
  | ret =>
    simp [fetch, held.1]
    rfl
  | pushImmediate value =>
    obtain ⟨opcode, operand⟩ := held
    have read := read_of_holds operand
    rw [Bytes.length_ofNat] at read
    have decoded : UInt32.ofNat (Bytes.toNat (Bytes.ofNat 4 value.toNat)) = value := by
      have small : value.toNat < Bytes.capacity 4 := value.toNat_lt
      rw [Bytes.toNat_ofNat, Nat.mod_eq_of_lt small, UInt32.ofNat_toNat]
    simp [fetch, opcode, read, decoded, AdapterStep.encode]

end CodeMemory

/-! ## Runs -/

namespace Processor

variable {code : CodeMemory} {start final : Processor}

/-- Where an instruction lies, the processor carries it out and goes on behind it. -/
theorem step_of_holds {instruction : AdapterStep}
    (held : code.Holds start.next instruction.encode) :
    start.step code =
      start.carryOut (start.next + UInt32.ofNat instruction.encode.length) instruction := by
  simp [step, CodeMemory.fetch_of_holds held]

/-- The bytes of some instructions. -/
def encodeAll (instructions : List AdapterStep) : Bytes :=
  (instructions.map AdapterStep.encode).flatten

/-- Carries out instructions that lie one after the other. -/
def runThrough (start : Processor) : List AdapterStep → Option Processor
  | [] => some start
  | instruction :: rest => do
    let after ← start.carryOut (start.next + UInt32.ofNat instruction.encode.length) instruction
    after.runThrough rest

/-- Only a return goes elsewhere than to the next instruction. -/
theorem next_of_carryOut {behind : UInt32} {instruction : AdapterStep}
    (straight : instruction ≠ .ret) (done : start.carryOut behind instruction = some final) :
    final.next = behind := by
  cases instruction with
  | pop register =>
    simp only [carryOut] at done
    split at done
    next => cases done
    next => cases done; rfl
  | push register => cases done; rfl
  | pushImmediate value => cases done; rfl
  | ret => exact absurd rfl straight

/-- Code that lies in memory is run instruction by instruction. -/
theorem reaches_of_runThrough {instructions : List AdapterStep}
    (straight : ∀ instruction ∈ instructions, instruction ≠ .ret)
    (held : code.Holds start.next (encodeAll instructions))
    (ran : start.runThrough instructions = some final) :
    Reaches code start final ∧
      final.next = start.next + UInt32.ofNat (encodeAll instructions).length := by
  induction instructions generalizing start with
  | nil =>
    cases ran
    exact ⟨.refl, by simp [encodeAll]⟩
  | cons instruction rest ih =>
    obtain ⟨goesOn, restGoesOn⟩ := List.forall_mem_cons.mp straight
    obtain ⟨here, behind⟩ := CodeMemory.holds_append.mp held
    obtain ⟨after, done, ran⟩ := Option.bind_eq_some_iff.mp ran
    have next_eq := next_of_carryOut goesOn done
    have stepped : start.step code = some after := (step_of_holds here).trans done
    rw [← next_eq] at behind
    obtain ⟨reached, final_eq⟩ := ih restGoesOn behind ran
    refine ⟨.head stepped reached, ?_⟩
    rw [final_eq, next_eq, UInt32.add_assoc, ← UInt32.ofNat_add]
    simp [encodeAll]

end Processor

end CilCapture.Engine
