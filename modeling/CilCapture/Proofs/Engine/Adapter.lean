import CilCapture.Proofs.Engine.Processor

/-!
# What adapters do

Run by the processor, an adapter makes of a call in one convention a call in the other one: control
comes to the routine with the same arguments, the same return address and the same stack below
(`adapters_deliver`). How a convention passes arguments is said once, by the registers that it uses
for the leading ones (`Convention.Passes`), so the two directions are one statement, and an adapter
that leads to the adapter of the other direction gives the caller's call back.

The code of an adapter is one list of instructions for every pair of conventions (`movesBetween`),
and running it is an induction over the registers that are popped and then pushed. The two pairs
that need no code, equal ones and those that cannot be adapted, are told apart from it in
`adapters_deliver`.

Of what an adapter must not touch the statement has the stack below the arguments and, for a call
that is adapted there and back, every register but the accumulator, which no convention passes
anything in.
-/

namespace CilCapture.Engine

namespace Convention

/-- The registers that hold the leading arguments, in their order. -/
def registers : Convention → List Register
  | thisCall => [.ecx]
  | fastCall => [.ecx, .edx]
  | winapi | cdecl | stdCall => []

/-- A processor about to run a routine of a convention: its registers hold the leading arguments,
and the stack holds the return address, the other arguments and what the caller has there. -/
structure Passes (convention : Convention) (returnTo : UInt32) (arguments below : List UInt32)
    (processor : Processor) : Prop where
  registers_eq : convention.registers.map processor.register =
    arguments.take convention.registers.length
  stack_eq : processor.stack =
    returnTo :: (arguments.drop convention.registers.length ++ below)

/-- Conventions of which one passes all arguments on the stack and the other one some in
registers. -/
def Adaptable (source called : Convention) : Prop :=
  (called.normalized = stdCall ∧ (source = thisCall ∨ source = fastCall)) ∨
    (source.normalized = stdCall ∧ (called = thisCall ∨ called = fastCall))

end Convention

open Convention

variable {source called : Convention} {code : CodeMemory} {start : Processor}
variable {returnTo target : UInt32} {arguments below : List UInt32}

/-! ## Which adapters there are -/

/-- The arguments that a routine expects in registers are popped of the stack, those that it is
called with in registers are pushed, and the return address is held in the accumulator meanwhile. -/
def movesBetween (source called : Convention) : List AdapterStep :=
  .pop .eax :: (source.registers.map .pop ++ called.registers.reverse.map .push) ++ [.push .eax]

/-- Between adaptable conventions there is something to move, and the moves are the ones described
by the registers of both. -/
theorem argumentMoves_of_adaptable (adaptable : Adaptable source called) :
    argumentMoves? source called = .ok (some (movesBetween source called)) := by
  rcases adaptable with ⟨standard, rfl | rfl⟩ | ⟨standard, rfl | rfl⟩
  · cases called <;> first | rfl | cases standard
  · cases called <;> first | rfl | cases standard
  · cases source <;> first | rfl | cases standard
  · cases source <;> first | rfl | cases standard

/-- The adapter is the bytes of the moves and of a jump to the target, which a push and a return
make. -/
theorem adapter_of_adaptable (target : UInt32) (adaptable : Adaptable source called) :
    adapter source called target = .ok (some (Processor.encodeAll
      (movesBetween source called ++ [.pushImmediate target, .ret]))) := by
  simp [adapter, argumentMoves_of_adaptable adaptable, Processor.encodeAll]
  rfl

/-! ## Moving arguments -/

namespace Processor

/-- Instructions in two parts are carried out one part after the other. -/
theorem runThrough_append (first second : List AdapterStep) (start : Processor) :
    start.runThrough (first ++ second) =
      (start.runThrough first).bind fun middle => middle.runThrough second := by
  induction first generalizing start with
  | nil => rfl
  | cons instruction first ih => simp [runThrough, ih, Option.bind_assoc]

/-- Popped registers hold the words that were on the stack, and all others what they held. -/
theorem runThrough_pops {registers : List Register} (distinct : registers.Nodup)
    {words rest : List UInt32} (length_eq : words.length = registers.length)
    (stack_eq : start.stack = words ++ rest) :
    ∃ popped, start.runThrough (registers.map .pop) = some popped ∧
      registers.map popped.register = words ∧ popped.stack = rest ∧
      ∀ other, other ∉ registers → popped.register other = start.register other := by
  induction registers generalizing start words with
  | nil =>
    cases List.length_eq_zero_iff.mp length_eq
    exact ⟨start, rfl, rfl, stack_eq, fun _ _ => rfl⟩
  | cons register registers ih =>
    obtain ⟨word, words, rfl⟩ := List.exists_cons_of_length_eq_add_one length_eq
    obtain ⟨fresh, distinct⟩ := List.nodup_cons.mp distinct
    let after : Processor :=
      { start.set register word with next := start.next + 1, stack := words ++ rest }
    have below : after.stack = words ++ rest := rfl
    obtain ⟨popped, ran, words_eq, left, others⟩ := ih distinct (Nat.succ.inj length_eq) below
    refine ⟨popped, ?_, ?_, left, ?_⟩
    · rw [List.map_cons, runThrough, carryOut, stack_eq]
      exact ran
    · rw [List.map_cons, words_eq, others register fresh]
      simp [after, set]
    · intro other unused
      simp only [List.mem_cons, not_or] at unused
      obtain ⟨different, unused⟩ := unused
      rw [others other unused]
      simp [after, set, different]

/-- Registers that are pushed, the last one first, lie on the stack in their order. -/
theorem runThrough_pushes (registers : List Register) (start : Processor) :
    ∃ pushed, start.runThrough (registers.reverse.map .push) = some pushed ∧
      pushed.register = start.register ∧
      pushed.stack = registers.map start.register ++ start.stack := by
  induction registers with
  | nil => exact ⟨start, rfl, rfl, rfl⟩
  | cons register registers ih =>
    obtain ⟨pushed, ran, same, stack_eq⟩ := ih
    let after : Processor :=
      { pushed with next := pushed.next + 1, stack := pushed.register register :: pushed.stack }
    refine ⟨after, ?_, same, ?_⟩
    · rw [List.reverse_cons, List.map_append, runThrough_append, ran]
      rfl
    · simp [after, stack_eq, same]

end Processor

namespace Convention

/-- No convention uses a register twice, so the value that is popped into one is not lost to the
next. -/
theorem nodup_registers (convention : Convention) : convention.registers.Nodup := by
  cases convention <;> decide

/-- The return address is held in a register that passes no argument. -/
theorem eax_notMem_registers (convention : Convention) : .eax ∉ convention.registers := by
  cases convention <;> decide

/-- A convention that passes everything on the stack uses no register. -/
theorem registers_of_normalized (standard : called.normalized = stdCall) :
    called.registers = [] := by
  cases called <;> first | rfl | cases standard

/-- Of two adaptable conventions one uses no registers. -/
theorem registers_of_adaptable (adaptable : Adaptable source called) :
    called.registers = [] ∨ source.registers = [] := by
  rcases adaptable with ⟨standard, -⟩ | ⟨standard, -⟩
  · exact .inl (registers_of_normalized standard)
  · exact .inr (registers_of_normalized standard)

end Convention

/-- The moves of an adapter make of a call in the one convention a call in the other one, and leave
alone the registers that neither needs. -/
theorem runThrough_moves (adaptable : Adaptable source called)
    (enough : source.registers.length ≤ arguments.length)
    (passes : called.Passes returnTo arguments below start) :
    ∃ moved, start.runThrough (movesBetween source called) = some moved ∧
      source.Passes returnTo arguments below moved ∧
      ∀ other, other ≠ .eax → other ∉ source.registers →
        moved.register other = start.register other := by
  obtain ⟨held, stack_eq⟩ := passes
  -- The return address goes to the accumulator, which holds no argument.
  let lifted : Processor :=
    { start.set .eax returnTo with
      next := start.next + 1
      stack := arguments.drop called.registers.length ++ below }
  have lift (rest : List AdapterStep) :
      start.runThrough (.pop .eax :: rest) = lifted.runThrough rest := by
    rw [Processor.runThrough, Processor.carryOut, stack_eq]
    rfl
  have liftedReturn : lifted.register .eax = returnTo := by simp [lifted, Processor.set]
  have liftedOther (other : Register) (different : other ≠ .eax) :
      lifted.register other = start.register other := by
    simp [lifted, Processor.set, different]
  suffices moves : ∃ shifted,
      lifted.runThrough (source.registers.map .pop ++ called.registers.reverse.map .push) =
        some shifted ∧
      source.registers.map shifted.register = arguments.take source.registers.length ∧
      shifted.stack = arguments.drop source.registers.length ++ below ∧
      ∀ other, other ∉ source.registers →
        shifted.register other = lifted.register other by
    obtain ⟨shifted, ran, registers_eq, shifted_eq, others⟩ := moves
    have returned : shifted.register .eax = returnTo :=
      (others .eax (eax_notMem_registers source)).trans liftedReturn
    refine ⟨{ shifted with next := shifted.next + 1, stack := returnTo :: shifted.stack },
      ?_, ⟨registers_eq, congrArg (returnTo :: ·) shifted_eq⟩, ?_⟩
    · show start.runThrough (.pop .eax :: (_ ++ [.push .eax])) = _
      rw [lift, Processor.runThrough_append, ran, ← returned]
      rfl
    · intro other different unused
      exact (others other unused).trans (liftedOther other different)
  -- One of the two conventions has no registers, so only pops or only pushes stand in between.
  rcases registers_of_adaptable adaptable with unused | unused
  · have words : lifted.stack = arguments.take source.registers.length ++
        (arguments.drop source.registers.length ++ below) := by
      simp [lifted, unused, ← List.append_assoc]
    have length_eq : (arguments.take source.registers.length).length =
        source.registers.length := by simp [enough]
    obtain ⟨popped, ran, words_eq, left, others⟩ :=
      Processor.runThrough_pops (nodup_registers source) length_eq words
    refine ⟨popped, ?_, words_eq, left, others⟩
    simpa [unused] using ran
  · obtain ⟨pushed, ran, same, pushed_eq⟩ :=
      Processor.runThrough_pushes called.registers lifted
    have words : called.registers.map lifted.register =
        arguments.take called.registers.length := by
      rw [← held]
      apply List.map_congr_left
      intro register used
      apply liftedOther
      rintro rfl
      exact eax_notMem_registers called used
    refine ⟨pushed, ?_, ?_, ?_, ?_⟩
    · simpa [unused] using ran
    · simp [unused]
    · rw [pushed_eq, words]
      simp [lifted, unused, ← List.append_assoc]
    · intro other _
      rw [same]

/-! ## Calls through adapters -/

/-- A call that is entered with the convention `called` comes to the target of the adapter as a call
with the convention `source`. -/
theorem reaches_of_adapter (adaptable : Adaptable source called)
    {bytes : Bytes} (built : adapter source called target = .ok (some bytes))
    (held : code.Holds start.next bytes)
    (enough : source.registers.length ≤ arguments.length)
    (passes : called.Passes returnTo arguments below start) :
    ∃ final, Processor.Reaches code start final ∧ final.next = target ∧
      source.Passes returnTo arguments below final ∧
      ∀ other, other ≠ .eax → other ∉ source.registers →
        final.register other = start.register other := by
  rw [adapter_of_adaptable target adaptable] at built
  cases built
  obtain ⟨moved, ran, delivered, others⟩ := runThrough_moves adaptable enough passes
  let jump : Processor := { moved with next := moved.next + 5, stack := target :: moved.stack }
  have parts : movesBetween source called ++ [.pushImmediate target, .ret] =
      (movesBetween source called ++ [.pushImmediate target]) ++ [.ret] := by simp
  have encoded : Processor.encodeAll (movesBetween source called ++ [.pushImmediate target, .ret]) =
      Processor.encodeAll (movesBetween source called ++ [.pushImmediate target]) ++
        AdapterStep.ret.encode := by
    rw [parts]
    simp [Processor.encodeAll]
  rw [encoded] at held
  obtain ⟨heldMoves, heldReturn⟩ := CodeMemory.holds_append.mp held
  have straight : ∀ instruction ∈ movesBetween source called ++ [.pushImmediate target],
      instruction ≠ .ret := by
    intro instruction used
    rintro rfl
    simp [movesBetween] at used
  have jumped : start.runThrough (movesBetween source called ++ [.pushImmediate target]) =
      some jump := by
    rw [Processor.runThrough_append, ran]
    rfl
  obtain ⟨reached, next_eq⟩ := Processor.reaches_of_runThrough straight heldMoves jumped
  rw [← next_eq] at heldReturn
  have returned : jump.step code = some { moved with next := target } :=
    (Processor.step_of_holds heldReturn).trans rfl
  exact ⟨{ moved with next := target }, reached.tail returned, rfl,
    ⟨delivered.registers_eq, delivered.stack_eq⟩, others⟩

/-- An adapter that leads to the adapter of the other direction gives the call back as it was made,
except for what the accumulator holds. -/
theorem reaches_of_roundTrip {convention : Convention}
    (inRegisters : convention = thisCall ∨ convention = fastCall)
    {inner : UInt32} {innerBytes outerBytes : Bytes}
    (builtInner : adapter convention .stdCall target = .ok (some innerBytes))
    (builtOuter : adapter .stdCall convention inner = .ok (some outerBytes))
    (heldInner : code.Holds inner innerBytes) (heldOuter : code.Holds start.next outerBytes)
    (enough : convention.registers.length ≤ arguments.length)
    (passes : convention.Passes returnTo arguments below start) :
    ∃ final, Processor.Reaches code start final ∧ final.next = target ∧
      convention.Passes returnTo arguments below final ∧ final.stack = start.stack ∧
      ∀ other, other ≠ .eax → final.register other = start.register other := by
  obtain ⟨middle, reachedMiddle, next_eq, middlePasses, middleOthers⟩ :=
    reaches_of_adapter (.inr ⟨rfl, inRegisters⟩) builtOuter heldOuter (Nat.zero_le _) passes
  rw [← next_eq] at heldInner
  obtain ⟨final, reachedFinal, final_eq, finalPasses, finalOthers⟩ :=
    reaches_of_adapter (.inl ⟨rfl, inRegisters⟩) builtInner heldInner enough middlePasses
  refine ⟨final, reachedMiddle.trans reachedFinal, final_eq, finalPasses, ?_, ?_⟩
  · rw [finalPasses.stack_eq, passes.stack_eq]
  · intro other different
    by_cases used : other ∈ convention.registers
    · have same : convention.registers.map final.register =
          convention.registers.map start.register := by
        rw [finalPasses.registers_eq, passes.registers_eq]
      exact List.map_inj_left.mp same other used
    · rw [finalOthers other different used]
      exact middleOthers other different List.not_mem_nil

/-- What adapters do. Each one that there is takes a call with any arguments, at any stack, from
the one convention to the other one; two of them, one for each direction, give the call back.
`winapi` is adapted as `stdCall`, conventions that agree need no adapter, and between all others
there is none. -/
theorem adapters_deliver :
    (∀ source called, Adaptable source called → ∀ target, ∃ bytes,
      adapter source called target = .ok (some bytes) ∧
      ∀ (code : CodeMemory) (start : Processor) (returnTo : UInt32)
        (arguments below : List UInt32), code.Holds start.next bytes →
        source.registers.length ≤ arguments.length →
        called.Passes returnTo arguments below start →
        ∃ final, Processor.Reaches code start final ∧ final.next = target ∧
          source.Passes returnTo arguments below final) ∧
    (∀ convention, convention = thisCall ∨ convention = fastCall →
      ∀ target inner, ∃ innerBytes outerBytes,
      adapter convention .stdCall target = .ok (some innerBytes) ∧
      adapter .stdCall convention inner = .ok (some outerBytes) ∧
      ∀ (code : CodeMemory) (start : Processor) (returnTo : UInt32)
        (arguments below : List UInt32), code.Holds inner innerBytes →
        code.Holds start.next outerBytes →
        convention.registers.length ≤ arguments.length →
        convention.Passes returnTo arguments below start →
        ∃ final, Processor.Reaches code start final ∧ final.next = target ∧
          convention.Passes returnTo arguments below final ∧ final.stack = start.stack ∧
          ∀ other, other ≠ .eax → final.register other = start.register other) ∧
    (∀ other target,
      (adapter .winapi other target).toOption = (adapter .stdCall other target).toOption ∧
      (adapter other .winapi target).toOption = (adapter other .stdCall target).toOption) ∧
    (∀ source called target, source.normalized = called.normalized →
      adapter source called target = .ok none) ∧
    (∀ source called target, source.normalized ≠ called.normalized → ¬ Adaptable source called →
      adapter source called target = .error (.unsupportedConvention source called)) := by
  refine ⟨?_, ?_, ?_, ?_, ?_⟩
  · intro source called adaptable target
    refine ⟨_, adapter_of_adaptable target adaptable, ?_⟩
    intro code start returnTo arguments below held enough passes
    obtain ⟨final, reached, final_eq, delivered, -⟩ := reaches_of_adapter adaptable
      (adapter_of_adaptable target adaptable) held enough passes
    exact ⟨final, reached, final_eq, delivered⟩
  · intro convention inRegisters target inner
    have toRegisters : Adaptable convention .stdCall := .inl ⟨rfl, inRegisters⟩
    have toStack : Adaptable .stdCall convention := .inr ⟨rfl, inRegisters⟩
    have builtInner := adapter_of_adaptable target toRegisters
    have builtOuter := adapter_of_adaptable inner toStack
    refine ⟨_, _, builtInner, builtOuter, ?_⟩
    intro code start returnTo arguments below heldInner heldOuter enough passes
    exact reaches_of_roundTrip inRegisters builtInner builtOuter heldInner heldOuter enough passes
  · intro other target
    cases other <;> exact ⟨rfl, rfl⟩
  · intro source called target agree
    cases source <;> cases called <;> first | rfl | cases agree
  · intro source called target differ unadaptable
    cases source <;> cases called <;>
      first
      | rfl
      | exact absurd rfl differ
      | exact absurd (by simp [Adaptable, normalized]) unadaptable

/-- The code of two adapters for `fastCall`, one leading to the other. -/
def pairedAdapters : CodeMemory := fun address =>
  if address < 0x2000 then
    [0x58, 0x52, 0x51, 0x50, 0x68, 0x00, 0x20, 0x00, 0x00, 0xC3][(address - 0x1000).toNat]?
  else
    [0x58, 0x59, 0x5A, 0x50, 0x68, 0x00, 0x30, 0x00, 0x00, 0xC3][(address - 0x2000).toNat]?

/-- A call of the first adapter with three arguments, two of them in registers. -/
def pairedCall : Processor where
  next := 0x1000
  register
    | .eax => 0
    | .ecx => 11
    | .edx => 12
  stack := [0x400123, 13, 99]

/-- There and back: the call arrives at the inner routine with its arguments in the registers again
and the caller's words untouched below. -/
theorem pairedAdapters_deliver :
    (∃ final, Processor.Reaches pairedAdapters pairedCall final ∧ final.next = 0x2000 ∧
      stdCall.Passes 0x400123 [11, 12, 13] [99] final) ∧
    ∃ final, Processor.Reaches pairedAdapters pairedCall final ∧ final.next = 0x3000 ∧
      fastCall.Passes 0x400123 [11, 12, 13] [99] final ∧ final.stack = [0x400123, 13, 99] ∧
      ∀ other, other ≠ .eax → final.register other = pairedCall.register other := by
  have passes : fastCall.Passes 0x400123 [11, 12, 13] [99] pairedCall := ⟨rfl, rfl⟩
  constructor
  · obtain ⟨bytes, built, delivers⟩ :=
      adapters_deliver.1 .stdCall .fastCall (.inr ⟨rfl, .inr rfl⟩) 0x2000
    have built_eq : adapter .stdCall .fastCall 0x2000 =
        .ok (some [0x58, 0x52, 0x51, 0x50, 0x68, 0x00, 0x20, 0x00, 0x00, 0xC3]) := rfl
    cases built_eq.symm.trans built
    apply delivers _ _ _ _ _ _ (Nat.zero_le _) passes
    simp only [CodeMemory.Holds]
    decide
  · obtain ⟨inner, outer, builtInner, builtOuter, delivers⟩ :=
      adapters_deliver.2.1 .fastCall (.inr rfl) 0x3000 0x2000
    have inner_eq : adapter .fastCall .stdCall 0x3000 =
        .ok (some [0x58, 0x59, 0x5A, 0x50, 0x68, 0x00, 0x30, 0x00, 0x00, 0xC3]) := rfl
    have outer_eq : adapter .stdCall .fastCall 0x2000 =
        .ok (some [0x58, 0x52, 0x51, 0x50, 0x68, 0x00, 0x20, 0x00, 0x00, 0xC3]) := rfl
    cases inner_eq.symm.trans builtInner
    cases outer_eq.symm.trans builtOuter
    apply delivers _ _ _ _ _ _ _ (by decide) passes
    · simp only [CodeMemory.Holds]
      decide
    · simp only [CodeMemory.Holds, pairedCall]
      decide

end CilCapture.Engine
