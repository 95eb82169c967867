import CilCapture.Proofs.Body.Assembly
import CilCapture.Proofs.Body.Bounds

/-!
# What an assembly asks, and when it succeeds

An assembly can fail for four reasons, which are looked for in a fixed order: a stack that is too
deep, code that does not decode, a token that its resolver refuses, a clause that does not line up
with the code. `Course` has a case for each of them and one for success, together with what the
resolver was asked on the way; `assemble_exact` says that every assembly takes one of these courses,
and which of them lead to a body.

The layout of a stream does not depend on its tokens, so the clauses are mapped through the code as
it was read: a resolver can make an assembly fail, and it can change the tokens that it was asked
for, but nothing else.

The proof follows the questions. `TokenResolver.noting` is the resolver with a list of its questions
beside its state; it answers as the resolver does (`noting_of_ok`, `noting_of_error`), so whatever
is shown of the notes is true of the resolver. From there the cases of `Course` are the cases of the
assembler, one for each place at which it can end.
-/

namespace CilCapture.Body

/-! ## Questions -/

/-- What a resolver is asked: an opcode and the token behind it. -/
abbrev Question := Il.Opcode × Token

/-- What a resolver is asked about instructions, in their order. -/
def questions (instructions : List Il.Instruction) : List Question :=
  instructions.filterMap fun instruction =>
    (askedToken? instruction).map (instruction.opcode, ·)

section

variable {ρ : Type}

/-- A result with notes beside its state. -/
def withNotes {ε α : Type} (asked : List Question) :
    EStateM.Result ε ρ α → EStateM.Result ε (ρ × List Question) α
  | .ok value state => .ok value (state, asked)
  | .error failure state => .error failure (state, asked)

/-- A resolver that notes what it is asked beside its own state. -/
def TokenResolver.noting (resolve : TokenResolver (EStateM Abort ρ)) :
    TokenResolver (EStateM Abort (ρ × List Question)) := fun opcode token (state, asked) =>
  withNotes (asked ++ [(opcode, token)]) (resolve opcode token state)

/-- A resolver that answers questions one after the other, each in the state that the one before
it left. -/
inductive Answers (resolve : TokenResolver (EStateM Abort ρ)) :
    ρ → List Question → List Token → ρ → Prop
  | nil (state : ρ) : Answers resolve state [] [] state
  | cons {state middle final : ρ} {opcode : Il.Opcode} {token answer : Token}
      {others : List Question} {answers : List Token}
      (answered : resolve opcode token state = .ok answer middle)
      (rest : Answers resolve middle others answers final) :
      Answers resolve state ((opcode, token) :: others) (answer :: answers) final

/-- A resolver that refuses one of the questions: those before it are answered, and those behind it
are not asked. -/
def Refuses (resolve : TokenResolver (EStateM Abort ρ)) (state : ρ) (all asked : List Question)
    (abort : Abort) (final : ρ) : Prop :=
  ∃ before refused after answers middle,
    all = before ++ refused :: after ∧ asked = before ++ [refused] ∧
      Answers resolve state before answers middle ∧
      resolve refused.1 refused.2 middle = .error abort final

variable {resolve : TokenResolver (EStateM Abort ρ)}

/-- An answered question is noted behind the ones before it. -/
theorem noting_of_ok {opcode : Il.Opcode} {token answer : Token} {state final : ρ}
    (answered : resolve opcode token state = .ok answer final) (asked : List Question) :
    resolve.noting opcode token (state, asked) =
      .ok answer (final, asked ++ [(opcode, token)]) :=
  congrArg (withNotes _) answered

/-- A refused question is noted as well, since it was asked. -/
theorem noting_of_error {opcode : Il.Opcode} {token : Token} {state final : ρ} {abort : Abort}
    (failed : resolve opcode token state = .error abort final) (asked : List Question) :
    resolve.noting opcode token (state, asked) =
      .error abort (final, asked ++ [(opcode, token)]) :=
  congrArg (withNotes _) failed

/-- A site asks its question before those of the instructions behind it. -/
theorem questions_of_asked {instruction : Il.Instruction} {token : Token}
    (site : askedToken? instruction = some token) (rest : List Il.Instruction) :
    questions (instruction :: rest) = (instruction.opcode, token) :: questions rest := by
  rw [questions, List.filterMap_cons, site]
  rfl

/-- An instruction without a site asks nothing. -/
theorem questions_of_plain {instruction : Il.Instruction} (plain : askedToken? instruction = none)
    (rest : List Il.Instruction) : questions (instruction :: rest) = questions rest := by
  rw [questions, List.filterMap_cons, plain]
  rfl

/-- A refusal further on is a refusal of the whole once the questions before it are answered. -/
theorem Refuses.cons {state middle final : ρ} {opcode : Il.Opcode} {token answer : Token}
    {others asked : List Question} {abort : Abort}
    (answered : resolve opcode token state = .ok answer middle)
    (rest : Refuses resolve middle others asked abort final) :
    Refuses resolve state ((opcode, token) :: others) ((opcode, token) :: asked) abort final := by
  obtain ⟨before, refused, after, answers, last, rfl, rfl, answered_before, failed⟩ := rest
  exact ⟨(opcode, token) :: before, refused, after, answer :: answers, last, rfl, rfl,
    .cons answered answered_before, failed⟩

/-- A resolver that answers all questions refuses none. -/
theorem Answers.not_refuses {state : ρ} {all asked : List Question} {answers : List Token}
    {final final' : ρ} {abort : Abort} (answered : Answers resolve state all answers final) :
    ¬ Refuses resolve state all asked abort final' := by
  rintro ⟨before, refused, after, answers', middle, rfl, -, answered_before, failed⟩
  induction answered_before generalizing answers with
  | nil state =>
    cases answered with
    | cons first _ => cases first.symm.trans failed
  | cons first _ ih =>
    cases answered with
    | cons first' rest' =>
      cases first.symm.trans first'
      exact ih rest' failed

/-- The tokens of instructions are asked for in order: all of them are answered and put into their
places, or the first one that is refused ends it. Notes of the questions change nothing. -/
theorem resolveInstructions_cases (resolve : TokenResolver (EStateM Abort ρ))
    (instructions : List Il.Instruction) (state : ρ) (earlier : List Question) :
    (∃ answers resolved final,
      Answers resolve state (questions instructions) answers final ∧
        Retokened instructions answers resolved ∧
        resolveInstructions resolve instructions state = .ok resolved final ∧
        resolveInstructions resolve.noting instructions (state, earlier) =
          .ok resolved (final, earlier ++ questions instructions)) ∨
      ∃ asked abort final,
        Refuses resolve state (questions instructions) asked abort final ∧
          resolveInstructions resolve instructions state = .error abort final ∧
          resolveInstructions resolve.noting instructions (state, earlier) =
            .error abort (final, earlier ++ asked) := by
  induction instructions generalizing state earlier with
  | nil =>
    refine .inl ⟨[], [], state, .nil state, .nil, rfl, ?_⟩
    rw [questions, List.filterMap_nil, List.append_nil]
    rfl
  | cons instruction rest ih =>
    cases site : askedToken? instruction with
    -- an instruction without a token asks nothing and is kept
    | none =>
      simp only [questions_of_plain site, resolveInstructions, resolveInstruction_of_plain _ site,
        pure_bind]
      rcases ih state earlier with ⟨answers, resolved, final, answered, retokened, done, noted⟩ |
        ⟨asked, abort, final, refused, failed, noted⟩
      · exact .inl ⟨answers, instruction :: resolved, final, answered, .kept site retokened,
          run_bind_of_ok done, run_bind_of_ok noted⟩
      · exact .inr ⟨asked, abort, final, refused, run_bind_of_error failed,
          run_bind_of_error noted⟩
    -- a question: refused, it ends the walk; answered, the rest goes on from the state it left
    | some token =>
      simp only [questions_of_asked site, resolveInstructions,
        resolveInstruction_of_askedToken? _ site, bind_assoc, pure_bind]
      cases answered : resolve instruction.opcode token state with
      | error abort final =>
        refine .inr ⟨[(instruction.opcode, token)], abort, final,
          ⟨[], _, _, [], state, rfl, rfl, .nil state, answered⟩, run_bind_of_error answered,
          run_bind_of_error (noting_of_error answered earlier)⟩
      | ok answer middle =>
        rw [run_bind_of_ok answered, run_bind_of_ok (noting_of_ok answered earlier)]
        rcases ih middle (earlier ++ [(instruction.opcode, token)]) with
          ⟨answers, resolved, final, others, retokened, done, noted⟩ |
          ⟨asked, abort, final, refused, failed, noted⟩
        · rw [List.append_assoc] at noted
          exact .inl ⟨answer :: answers, _, final, .cons answered others,
            .asked answer site retokened, run_bind_of_ok done, run_bind_of_ok noted⟩
        · rw [List.append_assoc] at noted
          exact .inr ⟨_, abort, final, refused.cons answered, run_bind_of_error failed,
            run_bind_of_error noted⟩

/-! ## Courses -/

/-- Replacing tokens leaves the layout as it is. -/
theorem Retokened.layout_eq {instructions resolved : List Il.Instruction} {tokens : List Token}
    (retokened : Retokened instructions tokens resolved) :
    Il.layout resolved = Il.layout instructions := by
  rw [Il.layout, Il.layout, Il.starts, Il.starts, retokened.startsFrom_eq, retokened.codeSize_eq]

/-- What comes of an assembly: a body, or the reason why there is none. -/
abbrev Assembling (ρ : Type) := EStateM.Result Abort ρ (MethodBody × List Notice)

/-- The courses of an assembly: what its resolver is asked and what comes of it. The reasons to fail
are looked for in this order. -/
inductive Course (resolve : TokenResolver (EStateM Abort ρ)) (parts : Parts) (state : ρ) :
    List Question → Assembling ρ → Prop
  /-- The stack is deeper than a header can say. -/
  | tooDeep (deep : 0xFFFF < parts.maxStack) :
    Course resolve parts state []
      (.error (.fault (.malformed (.maxStack parts.maxStack))) state)
  /-- The code does not decode. -/
  | undecoded {fault : Fault} (fits : parts.maxStack ≤ 0xFFFF)
    (failed : Il.decode parts.code = .error fault) :
    Course resolve parts state [] (.error (.fault fault) state)
  /-- The resolver refuses a token. -/
  | refused {instructions : List Il.Instruction} {asked : List Question} {abort : Abort}
    {final : ρ} (fits : parts.maxStack ≤ 0xFFFF)
    (decoded : Il.decode parts.code = .ok instructions)
    (refuses : Refuses resolve state (questions instructions) asked abort final) :
    Course resolve parts state asked (.error abort final)
  /-- A clause does not line up with the code. -/
  | misplaced {instructions : List Il.Instruction} {answers : List Token} {final : ρ}
    {before after : List Clause} {clause : Clause} {fault : Fault}
    (fits : parts.maxStack ≤ 0xFFFF) (decoded : Il.decode parts.code = .ok instructions)
    (answered : Answers resolve state (questions instructions) answers final)
    (clauses_eq : parts.clauses = before ++ clause :: after)
    (lands : ∀ earlier ∈ before, earlier.Lands instructions)
    (failed : Region.ofClause clause (Il.layout instructions) = .error fault) :
    Course resolve parts state (questions instructions) (.error (.fault fault) final)
  /-- The body has the decoded instructions with the answers put into them, and the regions that the
  clauses have in the code as it was decoded. Locals that do not parse are left out. -/
  | assembled {instructions : List Il.Instruction} {answers : List Token} {final : ρ}
    {body : MethodBody} {notices : List Notice} (fits : parts.maxStack ≤ 0xFFFF)
    (decoded : Il.decode parts.code = .ok instructions)
    (answered : Answers resolve state (questions instructions) answers final)
    (maxStack_eq : body.maxStack.toUInt32 = parts.maxStack)
    (initLocals_eq : body.initLocals = parts.initLocals)
    (retokened : Retokened instructions answers body.instructions)
    (regions : List.Forall₂
      (fun clause region => Region.ofClause clause (Il.layout instructions) = .ok region)
      parts.clauses body.regions)
    (localSignature_eq : body.localSignature =
      parts.locals.filter fun blob => (Signature.splitLocals blob).isOk) :
    Course resolve parts state (questions instructions) (.ok (body, notices) final)

/-- The locals are kept just when they can be taken apart; the assembler looks at nothing else in
them. -/
theorem keepLocals_fst (locals : Option Bytes) :
    (keepLocals locals).1 = locals.filter fun blob => (Signature.splitLocals blob).isOk := by
  cases locals with
  | none => rfl
  | some blob =>
    rw [keepLocals, Option.filter_some]
    cases Signature.splitLocals blob <;> rfl

/-- The body that instructions with resolved tokens are put into. -/
def bodyOf (parts : Parts) (resolved : List Il.Instruction) :
    Except Fault (MethodBody × List Notice) := do
  let regions ← parts.clauses.mapM fun clause => Region.ofClause clause (Il.layout resolved)
  return ({
    maxStack := parts.maxStack.toUInt16
    initLocals := parts.initLocals
    localSignature := (keepLocals parts.locals).1
    instructions := resolved
    regions }, (keepLocals parts.locals).2)

/-- Once the code is decoded, what is left to do is to ask and to put the body together. -/
theorem assemble_of_decoded (resolve : TokenResolver (EStateM Abort ρ)) {parts : Parts}
    {instructions : List Il.Instruction} (fits : parts.maxStack ≤ 0xFFFF)
    (decoded : Il.decode parts.code = .ok instructions) :
    assemble resolve parts = (do
      let resolved ← resolveInstructions resolve instructions
      liftFault (bodyOf parts resolved)) := by
  funext state
  rw [assemble, if_neg (UInt32.not_lt.mpr fits), decoded]
  change (resolveInstructions resolve instructions >>= _) state = _
  cases asking : resolveInstructions resolve instructions state with
  | error abort final => rw [run_bind_of_error asking, run_bind_of_error asking]
  | ok resolved final =>
    rw [run_bind_of_ok asking, run_bind_of_ok asking, bodyOf]
    cases parts.clauses.mapM fun clause => Region.ofClause clause (Il.layout resolved) <;> rfl

/-- Every assembly takes one of the courses, and notes of the questions change nothing about it. -/
theorem assemble_course (resolve : TokenResolver (EStateM Abort ρ)) (parts : Parts) (state : ρ) :
    ∃ asked,
      assemble resolve.noting parts (state, []) = withNotes asked (assemble resolve parts state) ∧
        Course resolve parts state asked (assemble resolve parts state) := by
  by_cases deep : 0xFFFF < parts.maxStack
  · rw [assemble, assemble, if_pos deep, if_pos deep]
    exact ⟨[], rfl, .tooDeep deep⟩
  have fits := UInt32.not_lt.mp deep
  cases decoded : Il.decode parts.code with
  | error fault =>
    rw [assemble, assemble, if_neg deep, if_neg deep, decoded]
    exact ⟨[], rfl, .undecoded fits decoded⟩
  | ok instructions =>
    rw [assemble_of_decoded resolve fits decoded, assemble_of_decoded resolve.noting fits decoded]
    rcases resolveInstructions_cases resolve instructions state [] with
      ⟨answers, resolved, final, answered, retokened, done, noted⟩ |
      ⟨asked, abort, final, refuses, failed, noted⟩
    · rw [run_bind_of_ok done, run_bind_of_ok noted, bodyOf, retokened.layout_eq]
      refine ⟨questions instructions, ?_, ?_⟩
      -- the regions are mapped after all questions, so their failure asks nothing more
      · cases parts.clauses.mapM fun clause => Region.ofClause clause (Il.layout instructions) <;>
          rfl
      · cases mapped : parts.clauses.mapM fun clause =>
            Region.ofClause clause (Il.layout instructions) with
        | error fault =>
          obtain ⟨before, clause, after, clauses_eq, mapped_before, failed⟩ :=
            exists_of_mapM_eq_error mapped
          exact .misplaced fits decoded answered clauses_eq
            (fun earlier mem => ofClause_isOk_iff_lands.mp (mapped_before earlier mem)) failed
        | ok regions =>
          refine .assembled fits decoded answered ?_ rfl retokened (mapM_eq_ok_iff.mp mapped)
            (keepLocals_fst parts.locals)
          rw [← UInt32.toNat_inj, UInt16.toNat_toUInt32, UInt32.toNat_toUInt16]
          exact Nat.mod_eq_of_lt (Nat.lt_succ_of_le (UInt32.le_iff_toNat_le.mp fits))
    · rw [run_bind_of_error failed, run_bind_of_error noted]
      exact ⟨asked, rfl, .refused fits decoded refuses⟩

/-- An assembly succeeds exactly when its stack fits a header, its code decodes, its resolver
answers every question about the code and each of its clauses lands on instructions, which in code
whose places are words is that the bounds of the clause name instructions. Locals have no part in
that. Whether it succeeds or fails, it takes one of the courses, and a resolver that takes notes has
noted the questions of that course. -/
theorem assemble_exact (resolve : TokenResolver (EStateM Abort ρ)) (parts : Parts) (state : ρ) :
    ((∃ body notices final, assemble resolve parts state = .ok (body, notices) final) ↔
      parts.maxStack ≤ 0xFFFF ∧ ∃ instructions, Il.decode parts.code = .ok instructions ∧
        (∃ answers final, Answers resolve state (questions instructions) answers final) ∧
        ∀ clause ∈ parts.clauses, clause.Lands instructions) ∧
    (∀ instructions, Il.decode parts.code = .ok instructions →
      parts.code.length ≤ 0x100000000 →
      ∀ clause : Clause, clause.Lands instructions ↔ clause.Bounded instructions) ∧
    ∃ asked,
      assemble resolve.noting parts (state, []) = withNotes asked (assemble resolve parts state) ∧
        Course resolve parts state asked (assemble resolve parts state) := by
  obtain ⟨asked, noted, course⟩ := assemble_course resolve parts state
  refine ⟨⟨?_, ?_⟩, ?_, asked, noted, course⟩
  · rintro ⟨body, notices, final, done⟩
    rw [done] at course
    cases course with
    | assembled fits decoded answered _ _ _ regions _ =>
      refine ⟨fits, _, decoded, ⟨_, _, answered⟩, fun clause mem => ?_⟩
      obtain ⟨region, -, made⟩ := exists_of_mem_left regions mem
      exact ofClause_isOk_iff_lands.mp ⟨region, made⟩
  · rintro ⟨fits, instructions, decoded, ⟨answers, final, answered⟩, lands⟩
    generalize assemble resolve parts state = result at course
    cases course with
    | tooDeep deep => exact absurd deep (UInt32.not_lt.mpr fits)
    | undecoded _ failed => cases decoded.symm.trans failed
    | refused _ decoded' refuses =>
      cases decoded.symm.trans decoded'
      exact absurd refuses answered.not_refuses
    | misplaced _ decoded' _ clauses_eq _ failed =>
      cases decoded.symm.trans decoded'
      have mem : _ ∈ parts.clauses := clauses_eq ▸ List.mem_append_right _ List.mem_cons_self
      obtain ⟨region, made⟩ := ofClause_isOk_iff_lands.mpr (lands _ mem)
      cases made.symm.trans failed
    | assembled => exact ⟨_, _, _, rfl⟩
  · intro instructions decoded small clause
    obtain ⟨⟨scanned, spelled, -, named⟩, -⟩ := Il.decode_eq_ok_iff.mp decoded
    exact Clause.lands_iff_bounded (spelled.length_eq named ▸ small)

end

/-- A resolver that answers as many questions as its state says and refuses the next one. -/
def tiring : TokenResolver (EStateM Abort Nat) := fun _ token => do
  match ← get with
  | 0 => throw (.fault (.other "tired"))
  | left + 1 => do
    set left
    return token

/-- A call, a string and two more calls, then a clause that no instruction starts for. -/
def threeCalls : Parts where
  code := [0x28, 1, 0, 0, 0x0A, 0x72, 1, 0, 0, 0x70, 0x28, 2, 0, 0, 0x0A, 0x28, 3, 0, 0, 0x0A, 0x2A]
  maxStack := 8
  initLocals := false
  locals := some [0x07, 0x02, 0x08]
  clauses := [⟨2, 1, 4, 5, 5, 0⟩]

/-- The string is not asked about, and neither is what stands behind the token that is refused. -/
theorem assemble_exact_threeCalls :
    (¬ ∃ body notices final, assemble tiring threeCalls 1 = .ok (body, notices) final) ∧
      ∃ asked, Course tiring threeCalls 1 asked (assemble tiring threeCalls 1) ∧
        asked =
          [(⟨0x28, "call", .token⟩, ⟨0x0A000001⟩), (⟨0x28, "call", .token⟩, ⟨0x0A000002⟩)] := by
  obtain ⟨-, -, asked, noted, course⟩ := assemble_exact tiring threeCalls 1
  have run : assemble tiring threeCalls 1 = .error (.fault (.other "tired")) 0 := by
    rfl
  have noted_run : assemble tiring.noting threeCalls (1, []) =
      .error (.fault (.other "tired")) (0, [(⟨0x28, "call", .token⟩, ⟨0x0A000001⟩),
        (⟨0x28, "call", .token⟩, ⟨0x0A000002⟩)]) := by
    rfl
  rw [noted_run, run] at noted
  cases noted
  refine ⟨?_, _, course, rfl⟩
  rintro ⟨body, notices, final, done⟩
  cases run.symm.trans done

end CilCapture.Body
