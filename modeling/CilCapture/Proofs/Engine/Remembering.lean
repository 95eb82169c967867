import CilCapture.Engine.Identity
import CilCapture.Proofs.Outcome

/-!
# Resolving handles with a memory

The resolver of a generation remembers what it found, and an engine that does not contradict itself
cannot be told from one that is asked every time, except by the questions that it is spared
(`resolver_transparent`). The engine may fail whenever it is asked, and may do anything between two
calls. `Finds` says what is asked and found without a memory; `Remembers` is what the memory holds
at any time: the answers that were given, and nothing of the calls that failed.

Two runs of the same session are compared only through what each visit comes to. The invariant goes
with the visits so far; its step is by cases on whether the handle is known
(`Remembers.after_known`, `Remembers.after_unknown`), and the statement about a visit is derived
from it alone (`transparent_of_known`, `transparent_of_unknown`).

The questions are told by an engine that notes what it is asked (`Questioned`), so sparing a
question is a statement about the code and not about how often it could have asked.
-/

namespace CilCapture.Engine

/-! ## Questions -/

/-- What an engine can be asked about a method. -/
inductive Question where
  | isValueTypeMember
  | instantiatingStub
  | unboxingStub
  deriving DecidableEq, Repr

/-- An engine beside the questions that it was asked. -/
structure Questioned (W : Type) where
  world : W
  asked : List (Question × Handle)

/-- Asks an engine, and notes the question. -/
def Questioned.ask {W α : Type} (question : Question) (method : Handle)
    (step : EStateM Fault W α) : EStateM Fault (Questioned W) α := fun questioned =>
  let ended := step questioned.world
  resultIn ⟨finalState ended, questioned.asked ++ [(question, method)]⟩ (resultOf ended)

instance {W : Type} [Introspection W] : Introspection (Questioned W) where
  isValueTypeMember method :=
    Questioned.ask .isValueTypeMember method (Introspection.isValueTypeMember method)
  instantiatingStub method :=
    Questioned.ask .instantiatingStub method (Introspection.instantiatingStub method)
  unboxingStub method :=
    Questioned.ask .unboxingStub method (Introspection.unboxingStub method)

variable {W : Type} [Introspection W]

/-! ## Without a memory -/

/-- The stub that a generation compiles for members of value types. -/
def Flavor.stub : Flavor → Handle → EStateM Fault W Handle
  | .v2 => Introspection.unboxingStub
  | .v40 | .v45 => Introspection.instantiatingStub

def Flavor.stubQuestion : Flavor → Question
  | .v2 => .unboxingStub
  | .v40 | .v45 => .instantiatingStub

/-- The rule of a generation, which remembers nothing. -/
def Flavor.rule : Flavor → Resolver
  | .v2 => .unboxing
  | .v40 | .v45 => .instantiating

/-- How a handle is resolved without a memory: what the engine is asked, what comes of it, and the
engine afterwards. -/
inductive Finds (flavor : Flavor) :
    Handle → W → List (Question × Handle) → Except Fault Handle → W → Prop where
  /-- The null handle is its own, and the engine is not asked. -/
  | null (world : W) : Finds flavor 0 world [] (.ok 0) world
  | unanswered {method : Handle} {world after : W} {fault : Fault} (given : method ≠ 0)
    (failed : Introspection.isValueTypeMember method world = .error fault after) :
    Finds flavor method world [(.isValueTypeMember, method)] (.error fault) after
  /-- A member of a reference type is its own. -/
  | own {method : Handle} {world after : W} (given : method ≠ 0)
    (answered : Introspection.isValueTypeMember method world = .ok false after) :
    Finds flavor method world [(.isValueTypeMember, method)] (.ok method) after
  /-- A member of a value type is what the engine says its stub is, if it says so. -/
  | stub {method : Handle} {world middle after : W} {result : Except Fault Handle}
    (given : method ≠ 0)
    (answered : Introspection.isValueTypeMember method world = .ok true middle)
    (ended : flavor.stub method middle = resultIn after result) :
    Finds flavor method world [(.isValueTypeMember, method), (flavor.stubQuestion, method)] result
      after

/-- The rule for members of value types, question by question. -/
theorem ofValueTypes_run (stub : Handle → EStateM Fault W Handle) (method : Handle) (world : W) :
    Resolver.ofValueTypes stub method world =
      if method = 0 then .ok method world
      else
        match Introspection.isValueTypeMember method world with
        | .error fault after => .error fault after
        | .ok false after => .ok method after
        | .ok true after => stub method after := by
  unfold Resolver.ofValueTypes
  split
  next => rfl
  next =>
    show EStateM.bind _ _ world = _
    unfold EStateM.bind
    cases Introspection.isValueTypeMember method world with
    | error fault after => rfl
    | ok isMember after => cases isMember <;> rfl

/-- A resolver without a memory resolves by its rule and stays as it is. -/
theorem resolve_rule (flavor : Flavor) (method : Handle) (world : W) :
    flavor.rule.resolve method world =
      let ended := Resolver.ofValueTypes flavor.stub method world
      resultIn (flavor.rule, finalState ended) (resultOf ended) := by
  cases flavor <;> simp only [Flavor.rule, Flavor.stub, Resolver.resolve] <;> split <;>
    rename_i ended <;> rw [ended] <;> rfl

/-- Asking for a stub is one question. -/
theorem stub_questioned (flavor : Flavor) (method : Handle) (questioned : Questioned W) :
    flavor.stub method questioned =
      Questioned.ask flavor.stubQuestion method (flavor.stub method) questioned := by
  cases flavor <;> rfl

namespace Finds

variable {flavor : Flavor} {method : Handle} {world after : W} {result : Except Fault Handle}
variable {questions : List (Question × Handle)}

/-- What is found is what the rule comes to, with the engine in the state that the questions leave.
-/
theorem ofValueTypes (finds : Finds flavor method world questions result after) :
    Resolver.ofValueTypes flavor.stub method world = resultIn after result := by
  rw [ofValueTypes_run]
  cases finds with
  | null => rfl
  | unanswered given failed => rw [if_neg given, failed]; rfl
  | own given answered => rw [if_neg given, answered]; rfl
  | stub given answered ended => rw [if_neg given, answered]; exact ended

/-- What is found is what a resolver without a memory tells. -/
theorem resolve (finds : Finds flavor method world questions result after) :
    flavor.rule.resolve method world = resultIn (flavor.rule, after) result := by
  rw [resolve_rule, finds.ofValueTypes]
  simp

/-- Noting the questions makes no difference, and what is noted are the questions. -/
theorem questioned (finds : Finds flavor method world questions result after)
    (asked : List (Question × Handle)) :
    Finds flavor method (⟨world, asked⟩ : Questioned W) questions result
      ⟨after, asked ++ questions⟩ := by
  have ask (question : Question) (noted : List (Question × Handle)) {α : Type}
      {step : EStateM Fault W α} {middle final : W} (result : Except Fault α)
      (ended : step middle = resultIn final result) :
      Questioned.ask question method step ⟨middle, noted⟩ =
        resultIn ⟨final, noted ++ [(question, method)]⟩ result := by
    simp [Questioned.ask, ended]
  cases finds with
  | null => simpa using Finds.null (⟨world, asked⟩ : Questioned W)
  | unanswered given failed =>
    exact .unanswered given (ask .isValueTypeMember asked (.error _) failed)
  | own given answered =>
    exact .own given (ask .isValueTypeMember asked (.ok _) answered)
  | stub given answered ended =>
    refine .stub given (ask .isValueTypeMember asked (.ok _) answered) ?_
    rw [stub_questioned, ask flavor.stubQuestion _ _ ended, List.append_assoc]
    rfl

/-- What is asked and found is determined by the engine. -/
theorem unique {questions' : List (Question × Handle)} {result' : Except Fault Handle} {after' : W}
    (finds : Finds flavor method world questions result after)
    (finds' : Finds flavor method world questions' result' after') :
    questions = questions' ∧ result = result' ∧ after = after' := by
  have same := (finds.questioned []).resolve.symm.trans (finds'.questioned []).resolve
  have result_eq := congrArg resultOf same
  have after_eq := congrArg (fun ended => (finalState ended).2) same
  simp only [resultOf_resultIn, finalState_resultIn, Questioned.mk.injEq] at result_eq after_eq
  exact ⟨after_eq.2, result_eq, after_eq.1⟩

end Finds

/-- Whatever the engine answers, something is found or some question fails. -/
theorem exists_finds (flavor : Flavor) (method : Handle) (world : W) :
    ∃ questions result after, Finds flavor method world questions result after := by
  by_cases null : method = 0
  · subst null
    exact ⟨_, _, _, .null world⟩
  · cases answered : Introspection.isValueTypeMember method world with
    | error fault after => exact ⟨_, _, _, .unanswered null answered⟩
    | ok isMember middle =>
      cases isMember with
      | false => exact ⟨_, _, _, .own null answered⟩
      | true => exact ⟨_, _, _, .stub null answered (eq_resultIn rfl)⟩

/-! ## Engines that do not contradict themselves -/

/-- What an engine says of methods whenever it says anything. -/
structure Answers where
  isValueTypeMember : Handle → Bool
  instantiatingStub : Handle → Handle
  unboxingStub : Handle → Handle

/-- A step that keeps a condition, and under it comes to one value if it comes to any. -/
def YieldsOnly {σ α : Type} (holds : σ → Prop) (value : α) (step : EStateM Fault σ α) : Prop :=
  Keeps holds step ∧
    ∀ state, holds state → ∀ found final, step state = .ok found final → found = value

namespace Answers

/-- Wherever a condition holds, the engine gives these answers or fails, and keeps the condition. -/
structure Steady (answers : Answers) (holds : W → Prop) : Prop where
  isValueTypeMember : ∀ method, YieldsOnly holds (answers.isValueTypeMember method)
    (Introspection.isValueTypeMember method)
  instantiatingStub : ∀ method, YieldsOnly holds (answers.instantiatingStub method)
    (Introspection.instantiatingStub method)
  unboxingStub : ∀ method, YieldsOnly holds (answers.unboxingStub method)
    (Introspection.unboxingStub method)

def stub (answers : Answers) : Flavor → Handle → Handle
  | .v2 => answers.unboxingStub
  | .v40 | .v45 => answers.instantiatingStub

/-- The owner of a method's code, as the answers have it. -/
def owner (answers : Answers) (flavor : Flavor) (method : Handle) : Handle :=
  if method = 0 then 0
  else if answers.isValueTypeMember method then answers.stub flavor method
  else method

variable {answers : Answers} {holds : W → Prop}

/-- Where the engine's answers are steady, so is the one about the stub. -/
theorem Steady.stub (steady : answers.Steady holds) (flavor : Flavor) (method : Handle) :
    YieldsOnly holds (answers.stub flavor method) (flavor.stub method) := by
  cases flavor with
  | v2 => exact steady.unboxingStub method
  | v40 | v45 => exact steady.instantiatingStub method

/-- What is found is the owner, and the engine stays as steady as it was. -/
theorem Steady.finds (steady : answers.Steady holds) {flavor : Flavor} {method : Handle}
    {world after : W} {questions : List (Question × Handle)} {result : Except Fault Handle}
    (finds : Finds flavor method world questions result after) (here : holds world) :
    holds after ∧ ∀ found, result = .ok found → found = answers.owner flavor method := by
  obtain ⟨keeps, only⟩ := steady.isValueTypeMember method
  unfold owner
  cases finds with
  | null => exact ⟨here, fun found same => by cases same; rfl⟩
  | unanswered given failed => exact ⟨keeps.of_error failed here, nofun⟩
  | own given answered =>
    refine ⟨keeps.of_ok answered here, fun found same => ?_⟩
    cases same
    rw [if_neg given, ← only world here _ _ answered]
    rfl
  | stub given answered ended =>
    have there := keeps.of_ok answered here
    obtain ⟨keeps', only'⟩ := steady.stub flavor method
    have final := keeps' _ there
    rw [ended, finalState_resultIn] at final
    refine ⟨final, ?_⟩
    rintro found rfl
    rw [if_neg given, ← only world here _ _ answered]
    exact only' _ there _ _ ended

end Answers

/-! ## Sessions -/

/-- What happens to a resolver and its engine: the engine goes on by itself, and then a handle is
resolved. -/
structure Call (W : Type) where
  meanwhile : W → W
  method : Handle

/-- A handle to be resolved, with the resolver and the engine at the time. -/
structure Visit (W : Type) where
  resolver : Resolver
  world : W
  method : Handle

namespace Visit

def ended (visit : Visit W) : EStateM.Result Fault (Resolver × W) Handle :=
  visit.resolver.resolve visit.method visit.world

def result (visit : Visit W) : Except Fault Handle := resultOf visit.ended

/-- The resolver after the visit. -/
def next (visit : Visit W) : Resolver := (finalState visit.ended).1

/-- The engine after the visit. -/
def after (visit : Visit W) : W := (finalState visit.ended).2

/-- What the engine is asked on the visit. -/
def asked (visit : Visit W) : List (Question × Handle) :=
  (finalState (visit.resolver.resolve visit.method (⟨visit.world, []⟩ : Questioned W))).2.asked

/-- A visit comes to a result, with the given questions, and leaves a resolver and an engine. -/
structure ComesTo (visit : Visit W) (questions : List (Question × Handle))
    (result : Except Fault Handle) (next : Resolver) (after : W) : Prop where
  asked : visit.asked = questions
  result : visit.result = result
  next : visit.next = next
  after : visit.after = after

/-- A visit comes to what resolving ended with. -/
theorem comesTo_of_ended {visit : Visit W} {questions : List (Question × Handle)}
    {result : Except Fault Handle} {next : Resolver} {after : W} (asked : visit.asked = questions)
    (ended : visit.ended = resultIn (next, after) result) :
    visit.ComesTo questions result next after where
  asked := asked
  result := by rw [Visit.result, ended, resultOf_resultIn]
  next := by rw [Visit.next, ended, finalState_resultIn]
  after := by rw [Visit.after, ended, finalState_resultIn]

end Visit

/-- The visits of a session, one for each call. -/
def visits : Resolver → W → List (Call W) → List (Visit W)
  | _, _, [] => []
  | resolver, world, call :: calls =>
    let visit : Visit W := ⟨resolver, call.meanwhile world, call.method⟩
    visit :: visits visit.next visit.after calls

/-! ## The memory -/

/-- A resolver of each generation starts with its rule and an empty memory. -/
theorem ofFlavor_eq (flavor : Flavor) : Resolver.ofFlavor flavor = .caching flavor.rule [] := by
  cases flavor <;> rfl

/-- A memory after what a handle was found to be; a failure leaves it as it is. -/
def remember (method : Handle) (result : Except Fault Handle) (known : List (Handle × Handle)) :
    List (Handle × Handle) :=
  match result with
  | .ok owner => (method, owner) :: known
  | .error _ => known

section

variable {flavor : Flavor} {known : List (Handle × Handle)} {visit : Visit W}

/-- What was just found is remembered. -/
theorem lookup_remember_self (method owner : Handle) :
    (remember method (.ok owner) known).lookup method = some owner := by
  rw [remember, List.lookup_cons, beq_self_eq_true]

/-- Other handles are remembered as they were. -/
theorem lookup_remember_of_ne {method other : Handle} (apart : other ≠ method)
    (result : Except Fault Handle) :
    (remember method result known).lookup other = known.lookup other := by
  cases result with
  | error fault => rfl
  | ok owner => rw [remember, List.lookup_cons, beq_eq_false_iff_ne.mpr apart]

/-- A handle that is remembered is told from memory. -/
theorem comesTo_of_known (resolver_eq : visit.resolver = .caching flavor.rule known)
    {owner : Handle} (found : known.lookup visit.method = some owner) :
    visit.ComesTo [] (.ok owner) visit.resolver visit.world := by
  refine Visit.comesTo_of_ended ?_ ?_
  · rw [Visit.asked, resolver_eq, Resolver.resolve, found]
    rfl
  · rw [Visit.ended, resolver_eq, Resolver.resolve, found]
    rfl

/-- Any other handle is found as without a memory, and then remembered. -/
theorem comesTo_of_unknown (resolver_eq : visit.resolver = .caching flavor.rule known)
    (unknown : known.lookup visit.method = none) {questions : List (Question × Handle)}
    {result : Except Fault Handle} {after : W}
    (finds : Finds flavor visit.method visit.world questions result after) :
    visit.ComesTo questions result (.caching flavor.rule (remember visit.method result known))
      after := by
  refine Visit.comesTo_of_ended ?_ ?_
  · rw [Visit.asked, resolver_eq, Resolver.resolve, unknown, (finds.questioned []).resolve]
    cases result <;> rfl
  · rw [Visit.ended, resolver_eq, Resolver.resolve, unknown, finds.resolve]
    cases result <;> rfl

/-- What is remembered of a handle makes no difference to any other. -/
theorem comesTo_of_remembered {method other : Handle} (apart : other ≠ method)
    (result : Except Fault Handle) (world : W) :
    let before : Visit W := ⟨.caching flavor.rule known, world, other⟩
    let later : Visit W := ⟨.caching flavor.rule (remember method result known), world, other⟩
    later.result = before.result ∧ later.after = before.after ∧ later.asked = before.asked := by
  have lookup_eq : (remember method result known).lookup other = known.lookup other :=
    lookup_remember_of_ne apart result
  intro before later
  cases found : known.lookup other with
  | some owner =>
    have one : before.ComesTo [] (.ok owner) before.resolver world := comesTo_of_known rfl found
    have two : later.ComesTo [] (.ok owner) later.resolver world :=
      comesTo_of_known rfl (lookup_eq.trans found)
    exact ⟨two.result.trans one.result.symm, two.after.trans one.after.symm,
      two.asked.trans one.asked.symm⟩
  | none =>
    obtain ⟨questions, result', after, finds⟩ := exists_finds flavor other world
    have one : before.ComesTo questions result' _ after := comesTo_of_unknown rfl found finds
    have two : later.ComesTo questions result' _ after :=
      comesTo_of_unknown rfl (lookup_eq.trans found) finds
    exact ⟨two.result.trans one.result.symm, two.after.trans one.after.symm,
      two.asked.trans one.asked.symm⟩

end

/-- A memory holds the answers that were given, and they are the owners. -/
structure Remembers (flavor : Flavor) (answers : Answers) (past : List (Visit W))
    (known : List (Handle × Handle)) : Prop where
  given : ∀ earlier ∈ past, ∀ owner, earlier.result = .ok owner →
    known.lookup earlier.method = some owner
  found : ∀ method owner, known.lookup method = some owner →
    owner = answers.owner flavor method ∧
      ∃ earlier ∈ past, earlier.method = method ∧ earlier.result = .ok owner

section

variable {flavor : Flavor} {known : List (Handle × Handle)} {visit : Visit W}
variable {answers : Answers} {holds : W → Prop} {past : List (Visit W)}

/-- A handle that was known changes nothing in the memory. -/
theorem Remembers.after_known (remembers : Remembers flavor answers past known) {owner : Handle}
    (told : visit.result = .ok owner) (found : known.lookup visit.method = some owner) :
    Remembers flavor answers (past ++ [visit]) known where
  given earlier mem answer given := by
    rcases List.mem_append.mp mem with mem | mem
    · exact remembers.given earlier mem answer given
    · cases List.mem_singleton.mp mem
      cases told.symm.trans given
      exact found
  found method answer found := by
    obtain ⟨owns, earlier, mem, told⟩ := remembers.found method answer found
    exact ⟨owns, earlier, List.mem_append_left _ mem, told⟩

/-- A handle that was not known is entered if it was found. A failure leaves no trace, so the next
visit asks again. -/
theorem Remembers.after_unknown (remembers : Remembers flavor answers past known)
    {result : Except Fault Handle} (told : visit.result = result)
    (unknown : known.lookup visit.method = none)
    (owns : ∀ owner, result = .ok owner → owner = answers.owner flavor visit.method) :
    Remembers flavor answers (past ++ [visit]) (remember visit.method result known) where
  given earlier mem answer given := by
    rcases List.mem_append.mp mem with mem | mem
    · have remembered := remembers.given earlier mem answer given
      have apart : earlier.method ≠ visit.method := by
        intro same
        rw [same, unknown] at remembered
        cases remembered
      rw [lookup_remember_of_ne apart, remembered]
    · cases List.mem_singleton.mp mem
      rw [← told, given, lookup_remember_self]
  found method answer found := by
    by_cases same : method = visit.method
    · subst same
      cases result with
      | error fault => cases unknown.symm.trans found
      | ok owner =>
        rw [lookup_remember_self] at found
        cases found
        exact ⟨owns _ rfl, visit, by simp, rfl, told⟩
    · rw [lookup_remember_of_ne same] at found
      obtain ⟨owns, earlier, mem, told⟩ := remembers.found method answer found
      exact ⟨owns, earlier, List.mem_append_left _ mem, told⟩

/-- A visit leaves a memory of the visits so far and of itself. -/
theorem Remembers.step (remembers : Remembers flavor answers past known)
    (steady : answers.Steady holds) (visit : Visit W) (here : holds visit.world)
    (resolver_eq : visit.resolver = .caching flavor.rule known) :
    ∃ known', visit.next = .caching flavor.rule known' ∧
      Remembers flavor answers (past ++ [visit]) known' ∧ holds visit.after := by
  cases found : known.lookup visit.method with
  | some owner =>
    have comesTo := comesTo_of_known resolver_eq found
    exact ⟨known, comesTo.next.trans resolver_eq, remembers.after_known comesTo.result found,
      comesTo.after ▸ here⟩
  | none =>
    obtain ⟨questions, result, after, finds⟩ := exists_finds flavor visit.method visit.world
    have comesTo := comesTo_of_unknown resolver_eq found finds
    obtain ⟨there, owns⟩ := steady.finds finds here
    exact ⟨_, comesTo.next, remembers.after_unknown comesTo.result found owns,
      comesTo.after ▸ there⟩

/-- At every visit of a session the resolver has a memory of the visits before. -/
theorem remembers_visits (steady : answers.Steady holds) {resolver : Resolver} {world : W}
    {calls : List (Call W)} {before later : List (Visit W)}
    (split : visits resolver world calls = before ++ visit :: later)
    (remembers : Remembers flavor answers past known)
    (resolver_eq : resolver = .caching flavor.rule known) (here : holds world)
    (kept : ∀ call ∈ calls, ∀ world, holds world → holds (call.meanwhile world)) :
    ∃ known', visit.resolver = .caching flavor.rule known' ∧
      Remembers flavor answers (past ++ before) known' ∧ holds visit.world := by
  induction calls generalizing resolver world before past known with
  | nil => simp [visits] at split
  | cons call calls ih =>
    obtain ⟨kept_here, kept⟩ := List.forall_mem_cons.mp kept
    have there := kept_here world here
    cases before with
    | nil =>
      obtain ⟨rfl, -⟩ := List.cons.inj split
      exact ⟨known, resolver_eq, by simpa using remembers, there⟩
    | cons first before =>
      obtain ⟨first_eq, split⟩ := List.cons.inj split
      obtain ⟨known', next_eq, remembers', after⟩ :=
        remembers.step steady ⟨resolver, call.meanwhile world, call.method⟩ there resolver_eq
      obtain ⟨known'', visit_eq, remembers'', final⟩ := ih split remembers' next_eq after kept
      exact ⟨known'', visit_eq, by simpa [first_eq] using remembers'', final⟩

end

/-! ## Transparency -/

/-- What a visit comes to, given the visits before it in the session. -/
structure Transparent (flavor : Flavor) (answers : Answers) (before : List (Visit W))
    (visit : Visit W) : Prop where
  /-- What was found once is told again without a question. -/
  known : ∀ earlier ∈ before, earlier.method = visit.method →
    ∀ owner, earlier.result = .ok owner →
      visit.result = .ok owner ∧ visit.asked = [] ∧ visit.after = visit.world
  /-- Until then the engine is asked as if nothing were ever remembered. -/
  unknown : (∀ earlier ∈ before, earlier.method = visit.method →
      ∀ owner, earlier.result ≠ .ok owner) →
    Finds flavor visit.method visit.world visit.asked visit.result visit.after
  /-- Whatever would be found without a memory is what is told. -/
  same : ∀ questions owner after,
    Finds flavor visit.method visit.world questions (.ok owner) after → visit.result = .ok owner
  owns : ∀ owner, visit.result = .ok owner → owner = answers.owner flavor visit.method
  /-- A failure is one of the engine's, and nothing is remembered of it. -/
  failed : ∀ fault, visit.result = .error fault →
    Finds flavor visit.method visit.world visit.asked (.error fault) visit.after ∧
      visit.next = visit.resolver
  /-- Any other handle is resolved as before the visit, whatever the state of the engine. -/
  others : ∀ other, other ≠ visit.method → ∀ world : W,
    let earlier : Visit W := ⟨visit.resolver, world, other⟩
    let later : Visit W := ⟨visit.next, world, other⟩
    later.result = earlier.result ∧ later.after = earlier.after ∧ later.asked = earlier.asked

section

variable {flavor : Flavor} {known : List (Handle × Handle)} {visit : Visit W}
variable {answers : Answers} {holds : W → Prop} {before : List (Visit W)}

/-- A known handle is told without a question, and it is the owner that was told before. -/
theorem transparent_of_known (steady : answers.Steady holds)
    (remembers : Remembers flavor answers before known) (here : holds visit.world)
    (resolver_eq : visit.resolver = .caching flavor.rule known) {owner : Handle}
    (found : known.lookup visit.method = some owner) : Transparent flavor answers before visit := by
  have comesTo := comesTo_of_known resolver_eq found
  obtain ⟨owns, source, source_mem, same_method, source_told⟩ := remembers.found _ _ found
  constructor
  case known =>
    intro earlier mem same answer told
    have remembered := remembers.given earlier mem answer told
    rw [same, found] at remembered
    cases remembered
    exact ⟨comesTo.result, comesTo.asked, comesTo.after⟩
  case unknown =>
    intro never
    exact absurd source_told (never source source_mem same_method owner)
  case same =>
    intro questions answer after finds
    obtain ⟨-, answer_owns⟩ := steady.finds finds here
    rw [comesTo.result, owns, answer_owns answer rfl]
  case owns =>
    intro answer told
    cases comesTo.result.symm.trans told
    exact owns
  case failed =>
    intro fault failed
    cases comesTo.result.symm.trans failed
  case others =>
    intro other apart world
    rw [comesTo.next]
    exact ⟨rfl, rfl, rfl⟩

/-- An unknown handle was never told before, and is found as if nothing were remembered. -/
theorem transparent_of_unknown (steady : answers.Steady holds)
    (remembers : Remembers flavor answers before known) (here : holds visit.world)
    (resolver_eq : visit.resolver = .caching flavor.rule known)
    (unknown : known.lookup visit.method = none) : Transparent flavor answers before visit := by
  obtain ⟨questions, result, after, finds⟩ := exists_finds flavor visit.method visit.world
  have comesTo := comesTo_of_unknown resolver_eq unknown finds
  obtain ⟨-, owns⟩ := steady.finds finds here
  have found : Finds flavor visit.method visit.world visit.asked visit.result visit.after := by
    rw [comesTo.asked, comesTo.result, comesTo.after]
    exact finds
  constructor
  case known =>
    intro earlier mem same answer told
    have remembered := remembers.given earlier mem answer told
    rw [same, unknown] at remembered
    cases remembered
  case unknown =>
    exact fun _ => found
  case same =>
    intro questions answer after finds'
    exact (finds.unique finds').2.1 ▸ comesTo.result
  case owns =>
    intro answer told
    exact owns answer (comesTo.result.symm.trans told)
  case failed =>
    intro fault failed
    have result_eq := comesTo.result.symm.trans failed
    refine ⟨failed ▸ found, ?_⟩
    rw [comesTo.next, result_eq, resolver_eq]
    rfl
  case others =>
    intro other apart world
    rw [comesTo.next, resolver_eq]
    exact comesTo_of_remembered apart result world

end

/-- The memory of a resolver cannot be told from asking every time. In every session with an engine
that does not contradict itself, however often it fails and whatever happens between the calls, a
handle that was found before is told again without a question, any other call is the rule of the
generation, failures included, and no call has to do with other handles. -/
theorem resolver_transparent (flavor : Flavor) {answers : Answers} {holds : W → Prop}
    (steady : answers.Steady holds) {world : W} (here : holds world) {calls : List (Call W)}
    (kept : ∀ call ∈ calls, ∀ world, holds world → holds (call.meanwhile world))
    {before later : List (Visit W)} {visit : Visit W}
    (split : visits (.ofFlavor flavor) world calls = before ++ visit :: later) :
    Transparent flavor answers before visit := by
  have nothing : Remembers flavor answers ([] : List (Visit W)) [] := ⟨by simp, by simp⟩
  obtain ⟨known, resolver_eq, remembers, there⟩ :=
    remembers_visits steady split nothing (ofFlavor_eq flavor) here kept
  cases found : known.lookup visit.method with
  | some owner => exact transparent_of_known steady remembers there resolver_eq found
  | none => exact transparent_of_unknown steady remembers there resolver_eq found

/-! ## An engine that fails now and then -/

/-- An engine that knows which of the coming questions go unanswered. -/
structure Flickering where
  outages : List Bool

namespace Flickering

def answer {α : Type} (value : α) : EStateM Fault Flickering α := fun engine =>
  match engine.outages with
  | true :: rest => .error (.other "busy") ⟨rest⟩
  | false :: rest => .ok value ⟨rest⟩
  | [] => .ok value engine

/-- Members of value types have the handles from `0x1000` on. -/
def answers : Answers where
  isValueTypeMember method := 0x1000 ≤ method
  instantiatingStub method := method + 0x100000
  unboxingStub method := method + 0x200000

instance : Introspection Flickering where
  isValueTypeMember method := answer (answers.isValueTypeMember method)
  instantiatingStub method := answer (answers.instantiatingStub method)
  unboxingStub method := answer (answers.unboxingStub method)

/-- The engine gives this answer or none. -/
theorem yieldsOnly_answer {α : Type} (value : α) :
    YieldsOnly (fun _ => True) value (answer value) := by
  refine ⟨fun _ _ => trivial, ?_⟩
  rintro ⟨outages⟩ - found final answered
  unfold answer at answered
  split at answered <;> cases answered <;> rfl

/-- However often it does not answer, the engine never answers differently. -/
theorem steady_answers : answers.Steady (W := Flickering) fun _ => True where
  isValueTypeMember _ := yieldsOnly_answer _
  instantiatingStub _ := yieldsOnly_answer _
  unboxingStub _ := yieldsOnly_answer _

/-- A member of a value type is resolved twice in vain, a member of a reference type once, the first
one with success, and then once more while the engine does not answer at all. -/
def session : List (Call Flickering) :=
  [⟨id, 0x1800⟩, ⟨id, 0x1800⟩, ⟨id, 0x400⟩, ⟨id, 0x1800⟩, ⟨fun _ => ⟨[true, true]⟩, 0x1800⟩]

/-- Unanswered go the first question and the third. -/
def sessionVisits : List (Visit Flickering) :=
  visits (.ofFlavor .v40) ⟨[true, false, true]⟩ session

end Flickering

open Flickering in
/-- Questions that went unanswered are asked again; once answered, the handle is told even while the
engine answers nothing. -/
theorem resolver_transparent_flickering :
    answers.Steady (W := Flickering) (fun _ => True) ∧
    sessionVisits.map Visit.result =
      [.error (.other "busy"), .error (.other "busy"), .ok 0x400, .ok 0x101800, .ok 0x101800] ∧
    sessionVisits.map (List.length ∘ Visit.asked) = [1, 2, 1, 2, 0] ∧
    ∃ visit, sessionVisits = sessionVisits.take 4 ++ [visit] ∧
      Transparent .v40 answers (sessionVisits.take 4) visit := by
  have split : visits (.ofFlavor .v40) ⟨[true, false, true]⟩ session =
      sessionVisits.take 4 ++ ⟨_, ⟨[true, true]⟩, 0x1800⟩ :: [] := rfl
  exact ⟨steady_answers, rfl, rfl, _, split,
    resolver_transparent .v40 steady_answers trivial (fun _ _ _ _ => trivial) split⟩

end CilCapture.Engine
