import Mathlib.Data.List.Forall2
import CilCapture.Fault

/-!
# Computations that succeed

What it takes for a chain of fallible steps to come to a result. A step over a list succeeds when it
succeeds on each item, so its result stands beside the list item by item (`mapM_eq_ok_iff`).

Of a step with a state three things are said separately: the value or failure it comes to
(`resultOf`), the state it ends in (`finalState`), and which conditions on the state it keeps
(`Keeps`). The last one holds of a failure as well, because most steps here can fail half way and
their callers go on from there.

Lists in step (`List.Forall₂`) carry facts from a list of inputs to the list of results and back,
and `forall_or_first` is the search for the first item of which something does not hold.
-/

namespace CilCapture

variable {ε α β : Type}

@[simp] theorem bind_ok (value : α) (next : α → Except ε β) :
    ((.ok value : Except ε α) >>= next) = next value := rfl

/-- A sequence of two steps succeeds just when both do, the second on what the first gave. -/
theorem bind_eq_ok {step : Except ε α} {next : α → Except ε β} {result : β} :
    step >>= next = .ok result ↔ ∃ value, step = .ok value ∧ next value = .ok result := by
  cases step <;> simp [bind, Except.bind]

/-- Two steps over a state succeed when each does, the second from where the first one ends. -/
theorem run_bind_eq_ok {σ : Type} {step : EStateM ε σ α} {next : α → EStateM ε σ β}
    {state final : σ} {result : β} :
    (step >>= next) state = .ok result final ↔
      ∃ value middle, step state = .ok value middle ∧ next value middle = .ok result final := by
  cases taken : step state <;> simp [bind, EStateM.bind, taken]

/-- Two steps over a state fail when the first one does, or the second from where the first one
ends. -/
theorem run_bind_eq_error {σ : Type} {step : EStateM ε σ α} {next : α → EStateM ε σ β}
    {state final : σ} {failure : ε} :
    (step >>= next) state = .error failure final ↔ step state = .error failure final ∨
      ∃ value middle, step state = .ok value middle ∧
        next value middle = .error failure final := by
  cases taken : step state <;> simp [bind, EStateM.bind, taken]

/-- After a step that succeeded, a sequence goes on from its value and its state. -/
theorem run_bind_of_ok {σ : Type} {step : EStateM ε σ α} {next : α → EStateM ε σ β}
    {state middle : σ} {value : α} (taken : step state = .ok value middle) :
    (step >>= next) state = next value middle := by
  simp [bind, EStateM.bind, taken]

/-- A step that failed ends the sequence, with its failure and the state it left. -/
theorem run_bind_of_error {σ : Type} {step : EStateM ε σ α} {next : α → EStateM ε σ β}
    {state final : σ} {failure : ε} (failed : step state = .error failure final) :
    (step >>= next) state = .error failure final := by
  simp [bind, EStateM.bind, failed]

/-- The state that a step ends in, whatever it comes to. -/
def finalState {ε σ α : Type} : EStateM.Result ε σ α → σ
  | .ok _ final => final
  | .error _ final => final

/-- The end of a step with a given result. -/
def resultIn {ε σ α : Type} (final : σ) : Except ε α → EStateM.Result ε σ α
  | .ok value => .ok value final
  | .error failure => .error failure final

/-- What a step comes to, wherever it ends. -/
def resultOf {ε σ α : Type} : EStateM.Result ε σ α → Except ε α
  | .ok value _ => .ok value
  | .error failure _ => .error failure

/-- Building an outcome from its two halves and taking the first one back. -/
@[simp] theorem resultOf_resultIn {σ : Type} (final : σ) (result : Except ε α) :
    resultOf (resultIn final result) = result := by
  cases result <;> rfl

@[simp] theorem finalState_resultIn {σ : Type} (final : σ) (result : Except ε α) :
    finalState (resultIn final result) = final := by
  cases result <;> rfl

/-- An outcome is determined by the state it ends in and the result it carries. -/
theorem eq_resultIn {σ : Type} {ended : EStateM.Result ε σ α} {result : Except ε α}
    (result_eq : resultOf ended = result) : ended = resultIn (finalState ended) result := by
  cases ended <;> cases result_eq <;> rfl

/-- Two steps end where the second one does, or where the first one failed. -/
theorem finalState_bind {σ : Type} (step : EStateM ε σ α) (next : α → EStateM ε σ β) (state : σ) :
    finalState ((step >>= next) state) =
      match step state with
      | .ok value middle => finalState (next value middle)
      | .error _ middle => middle := by
  cases taken : step state <;> simp [bind, EStateM.bind, taken, finalState]

/-! ## What a step keeps -/

section

variable {σ : Type} {holds : σ → Prop}

/-- A step that keeps a condition on the state, whatever it comes to. -/
def Keeps (holds : σ → Prop) (step : EStateM ε σ α) : Prop :=
  ∀ state, holds state → holds (finalState (step state))

/-- A step that keeps a property has it in the state of a success. -/
theorem Keeps.of_ok {step : EStateM ε σ α} (keeps : Keeps holds step) {state final : σ} {value : α}
    (done : step state = .ok value final) (here : holds state) : holds final := by
  have there := keeps state here
  rwa [done] at there

/-- A step that keeps a property has it in the state of a failure as well, which is what a test that
is refused half way through rests on. -/
theorem Keeps.of_error {step : EStateM ε σ α} (keeps : Keeps holds step) {state final : σ}
    {failure : ε} (failed : step state = .error failure final) (here : holds state) :
    holds final := by
  have there := keeps state here
  rwa [failed] at there

/-- What both steps keep, their sequence keeps, wherever it stops. -/
theorem Keeps.bind {step : EStateM ε σ α} {next : α → EStateM ε σ β} (first : Keeps holds step)
    (second : ∀ value, Keeps holds (next value)) : Keeps holds (step >>= next) := by
  intro state here
  have there := first state here
  rw [finalState_bind]
  cases taken : step state with
  | ok value middle =>
    rw [taken] at there
    exact second value middle there
  | error failure middle =>
    rw [taken] at there
    exact there

theorem keeps_pure (value : α) : Keeps holds (pure value : EStateM ε σ α) := fun _ here => here

theorem keeps_throw (failure : ε) : Keeps holds (throw failure : EStateM ε σ α) :=
  fun _ here => here

theorem keeps_get : Keeps holds (get : EStateM ε σ σ) := fun _ here => here

/-- Settling a result that is already known touches no state. -/
theorem keeps_settle (result : Except Fault α) : Keeps holds (settle result) := by
  cases result with
  | ok value => exact keeps_pure value
  | error fault => exact keeps_throw fault

/-- An attempt never fails; it ends where the step does. -/
theorem attempt_eq_ok (step : EStateM Fault σ α) (state : σ) :
    ∃ result, attempt step state = .ok result (finalState (step state)) := by
  unfold attempt
  cases step state with
  | ok value final => exact ⟨.ok value, rfl⟩
  | error fault final => exact ⟨.error fault, rfl⟩

/-- An attempt that reports success is a success of the step itself. -/
theorem attempt_ok_iff {step : EStateM Fault σ α} {state after : σ} {value : α} :
    attempt step state = .ok (.ok value) after ↔ step state = .ok value after := by
  unfold attempt
  cases step state <;> simp

/-- An attempt that reports a fault is a failure of the step itself, in the state the step left. -/
theorem attempt_error_iff {step : EStateM Fault σ α} {state after : σ} {fault : Fault} :
    attempt step state = .ok (.error fault) after ↔ step state = .error fault after := by
  unfold attempt
  cases step state <;> simp

/-- Catching the failure of a step changes nothing in what the step keeps. -/
theorem Keeps.attempt {step : EStateM Fault σ α} (keeps : Keeps holds step) :
    Keeps holds (attempt step) := by
  intro state here
  obtain ⟨result, attempted⟩ := attempt_eq_ok step state
  rw [attempted]
  exact keeps state here

end

/-- A result that was changed afterwards is a success just when it was one before. -/
theorem map_eq_ok {step : Except ε α} {change : α → β} {result : β} :
    change <$> step = .ok result ↔ ∃ value, step = .ok value ∧ change value = result := by
  cases step <;> simp [Functor.map, Except.map]

/-- A step over a list succeeds when it does so on each item. -/
theorem mapM_eq_ok_iff {step : α → Except ε β} {items : List α} {results : List β} :
    items.mapM step = .ok results ↔
      List.Forall₂ (fun item result => step item = .ok result) items results := by
  induction items generalizing results with
  | nil => simp [pure, Except.pure, eq_comm]
  | cons item items ih =>
    rw [List.mapM_cons, bind_eq_ok]
    simp only [bind_eq_ok, ih, List.forall₂_cons_left_iff]
    constructor
    · rintro ⟨result, head, results, tail, same⟩
      cases same
      exact ⟨result, results, head, tail, rfl⟩
    · rintro ⟨result, results, head, tail, rfl⟩
      exact ⟨result, head, results, tail, rfl⟩

/-- A step over a list fails with the first item that it fails on. -/
theorem exists_of_mapM_eq_error {step : α → Except ε β} {items : List α} {failure : ε}
    (failed : items.mapM step = .error failure) :
    ∃ before item after, items = before ++ item :: after ∧
      (∀ earlier ∈ before, ∃ result, step earlier = .ok result) ∧ step item = .error failure := by
  induction items with
  | nil => cases failed
  | cons item items ih =>
    cases taken : step item with
    | error other =>
      rw [List.mapM_cons, taken] at failed
      cases failed
      exact ⟨[], item, items, rfl, nofun, taken⟩
    | ok result =>
      cases rest : items.mapM step with
      | ok results =>
        rw [List.mapM_cons, taken, bind_ok, rest] at failed
        cases failed
      | error other =>
        rw [List.mapM_cons, taken, bind_ok, rest] at failed
        cases failed
        obtain ⟨before, there, after, rfl, before_ok, failed⟩ := ih rest
        exact ⟨item :: before, there, after, rfl,
          List.forall_mem_cons.mpr ⟨⟨result, taken⟩, before_ok⟩, failed⟩

/-- A property holds of all items, or of those before a first one that does not have it. -/
theorem forall_or_first {holds : α → Prop} (items : List α) :
    (∀ item ∈ items, holds item) ∨
      ∃ before first after, items = before ++ first :: after ∧
        (∀ earlier ∈ before, holds earlier) ∧ ¬ holds first := by
  induction items with
  | nil => exact .inl (by simp)
  | cons item items ih =>
    by_cases here : holds item
    · rcases ih with all | ⟨before, first, after, rfl, earlier, fails⟩
      · exact .inl (List.forall_mem_cons.mpr ⟨here, all⟩)
      · exact .inr ⟨item :: before, first, after, rfl,
          List.forall_mem_cons.mpr ⟨here, earlier⟩, fails⟩
    · exact .inr ⟨[], item, items, rfl, by simp, here⟩

/-- A member of the second of two lists in step has its partner in the first. -/
theorem exists_of_mem_right {Related : α → β → Prop} {lefts : List α} {rights : List β} {right : β}
    (related : List.Forall₂ Related lefts rights) (mem : right ∈ rights) :
    ∃ left ∈ lefts, Related left right := by
  induction related with
  | nil => cases mem
  | cons head _ ih =>
    rcases List.mem_cons.mp mem with rfl | mem
    · exact ⟨_, List.mem_cons_self, head⟩
    · obtain ⟨left, mem, there⟩ := ih mem
      exact ⟨left, List.mem_cons_of_mem _ mem, there⟩

/-- A member of the first of two lists in step has its partner in the second. -/
theorem exists_of_mem_left {Related : α → β → Prop} {lefts : List α} {rights : List β} {left : α}
    (related : List.Forall₂ Related lefts rights) (mem : left ∈ lefts) :
    ∃ right ∈ rights, Related left right :=
  exists_of_mem_right related.flip mem

/-- When each item has one that belongs to it, a list has a list. -/
theorem exists_forall₂ {Related : α → β → Prop} {lefts : List α}
    (each : ∀ left ∈ lefts, ∃ right, Related left right) :
    ∃ rights, List.Forall₂ Related lefts rights := by
  induction lefts with
  | nil => exact ⟨[], .nil⟩
  | cons left lefts ih =>
    obtain ⟨head, tail⟩ := List.forall_mem_cons.mp each
    obtain ⟨right, related⟩ := head
    obtain ⟨rights, all_related⟩ := ih tail
    exact ⟨right :: rights, .cons related all_related⟩

/-- What is found first in one of two such lists belongs to what is found first in the other. -/
theorem find?_forall₂ {Related : α → β → Prop} {lefts : List α} {rights : List β} {p : α → Bool}
    {q : β → Bool} (related : List.Forall₂ Related lefts rights)
    (same : ∀ left right, Related left right → p left = q right) :
    Option.Rel Related (lefts.find? p) (rights.find? q) := by
  induction related with
  | nil => exact .none
  | @cons left right _ _ head _ ih =>
    rw [List.find?_cons, List.find?_cons, ← same left right head]
    cases p left with
    | true => exact .some head
    | false => exact ih

end CilCapture
