import Mathlib.Data.Option.Defs
import CilCapture.Proofs.Compile.Entry

/-!
# Coupled processes

A process is run side by side with variants of it. A relation between them that the elementary steps
of the entry points keep, while they come to the same, is a `Coupling`. It is kept then by whole
calls, with all that is nested in them, and these come to the same as well (`couples_siftWithin`,
`couples_enter`).

A coupling may be one for some calls only: what a call is edited to and what a callback calls has to
be of the same kind. Several variants at once are what it takes to say that they vary in the same
way, such as by what a record in them held before.

The proof is by induction on the levels of nesting that are left, with one lemma for a call given
the filtering behind it (`couples_enterWith`) and one for filtering given the calls that a callback
may make. That is the shape of the definitions, in which the two call each other.

Everything later that compares runs is an instance: `Journal` with a journal beside the state,
`Passing` with a record of calls, `Keeping` with no variants at all, and the comparison of recorders
in `Capture/Coupling`.
-/

namespace CilCapture.Compile

open Engine

variable {ι C C' W W' α : Type}

/-- A process and its variants come to the same and are related then. -/
def Agree (R : Process C W → (ι → Process C' W') → Prop) (result : α × Process C W)
    (results : ι → α × Process C' W') : Prop :=
  ∃ variants : ι → Process C' W', (∀ i, results i = (result.1, variants i)) ∧ R result.2 variants

/-- A step of a process and one of its variants that keep a relation and come to the same. -/
def Couples (R : Process C W → (ι → Process C' W') → Prop) (step : Process C W → α × Process C W)
    (step' : Process C' W' → α × Process C' W') : Prop :=
  ∀ process variants, R process variants → Agree R (step process) fun i => step' (variants i)

/-- A change of a process and one of its variants that keep a relation. -/
def Carries (R : Process C W → (ι → Process C' W') → Prop) (change : Process C W → Process C W)
    (change' : Process C' W' → Process C' W') : Prop :=
  ∀ process variants, R process variants → R (change process) fun i => change' (variants i)

section

variable (admits : CompileCall → Prop) (R : Process C W → (ι → Process C' W') → Prop)

/-- Filtering came to the same, and a call that was forwarded is still of the kind it was. -/
structure AgreeSifted (call : CompileCall) (result : FilterOutcome × Process C W)
    (results : ι → FilterOutcome × Process C' W') : Prop where
  agree : Agree R result results
  admitted : ∀ event, result.1 = .forward event → admits (call.withEvent event)

/-- Filtering of the events of one kind of calls that keeps a relation. -/
def CouplesSifts (sift : CompileEvent → Process C W → FilterOutcome × Process C W)
    (sift' : CompileEvent → Process C' W' → FilterOutcome × Process C' W') : Prop :=
  ∀ call, admits call → ∀ layout process variants, R process variants →
    AgreeSifted admits R call (sift (call.event layout) process) fun i =>
      sift' (call.event layout) (variants i)

/-- Callbacks that keep a relation if the calls that they make do. -/
def CouplesCallbacks [NativeCode W] [NativeCode W'] (callback : Callback C W)
    (callback' : Callback C' W') : Prop :=
  ∀ (sift : CompileEvent → Process C W → FilterOutcome × Process C W)
    (sift' : CompileEvent → Process C' W' → FilterOutcome × Process C' W'),
    CouplesSifts admits R sift sift' →
    (∀ call, admits call → Couples R (Process.enterWith sift call) (Process.enterWith sift' call)) →
    ∀ call, admits call → ∀ layout process variants, R process variants →
      Agree R ((callback (call.event layout)).run (Process.enterWith sift) sift process)
        (fun i =>
          (callback' (call.event layout)).run (Process.enterWith sift') sift' (variants i)) ∧
      ∀ event, ((callback (call.event layout)).run (Process.enterWith sift) sift process).1 =
        some (.forward event) → admits (call.withEvent event)

/-- A relation between a process and variants of it that the steps of the entry points keep. -/
structure Coupling [Introspection W] [NativeCode W] [Introspection W'] [NativeCode W'] :
    Prop where
  entrance : ∀ {process variants}, R process variants → ∀ call, admits call → ∀ i,
    (variants i).entrance call = process.entrance call
  depth : ∀ {process variants}, R process variants → ∀ i,
    (variants i).filter.depth = process.filter.depth
  isTarget : ∀ call, admits call → ∀ layout request, (call.event layout).request? = some request →
    Couples R (Process.isTarget request) (Process.isTarget request)
  callback : ∀ {process variants}, R process variants → ∃ callback',
    (∀ i, (variants i).filter.callback = callback') ∧
      Option.Rel (CouplesCallbacks admits R) process.filter.callback callback'
  begins : Carries R (Process.onFilter .enter) (Process.onFilter .enter)
  ends : Carries R (Process.onFilter .leave) (Process.onFilter .leave)
  stash : ∀ fault, Carries R (Process.onFilter (.stash fault)) (Process.onFilter (.stash fault))
  passOn : ∀ slot call, admits call →
    Couples R (Process.passOn slot call) (Process.passOn slot call)

end

/-- A condition on a process by itself, as a relation to no variants at all. -/
def Alone (holds : Process C W → Prop) (process : Process C W) (_ : Empty → Process C W) : Prop :=
  holds process

/-- Without variants, agreeing is the condition on the process itself. -/
theorem agree_alone {holds : Process C W → Prop} {result : α × Process C W}
    {results : Empty → α × Process C W} : Agree (Alone holds) result results ↔ holds result.2 :=
  ⟨fun ⟨_, _, there⟩ => there, fun there => ⟨Empty.elim, (Empty.elim ·), there⟩⟩

/-- Containing a breakdown makes a failure of it, never a forwarded call. -/
theorem contain_eq_forward {result : FilterOutcome × Process C W} {event : CompileEvent}
    (forwarded : (Process.contain result).1 = .forward event) : result.1 = .forward event := by
  obtain ⟨outcome, process⟩ := result
  cases outcome with
  | broken => cases forwarded
  | forward | claimed | failed => exact forwarded

section

variable {admits : CompileCall → Prop} {R : Process C W → (ι → Process C' W') → Prop}

/-- A coupling for all calls is one for all events, since each is the event of a call. -/
theorem CouplesSifts.event {sift : CompileEvent → Process C W → FilterOutcome × Process C W}
    {sift' : CompileEvent → Process C' W' → FilterOutcome × Process C' W'}
    (sifts : CouplesSifts (fun _ => True) R sift sift') (event : CompileEvent) :
    Couples R (sift event) (sift' event) :=
  fun process variants related => (sifts ⟨.compileMethod, 0, 0, event.jitInfo, event.info, 0,
    event.nativeEntry, event.nativeSize⟩ trivial event.layout process variants related).agree

theorem agree_pair {process : Process C W} {variants : ι → Process C' W'} (value : α)
    (related : R process variants) : Agree R (value, process) fun i => (value, variants i) :=
  ⟨variants, fun _ => rfl, related⟩

/-- An event that is forwarded as it is leaves the call as it is. -/
theorem agreeSifted_forward {call : CompileCall} (admitted : admits call) (layout : InfoLayout)
    {process : Process C W} {variants : ι → Process C' W'} (related : R process variants) :
    AgreeSifted admits R call (.forward (call.event layout), process) fun i =>
      (.forward (call.event layout), variants i) := by
  refine ⟨agree_pair _ related, ?_⟩
  rintro event ⟨⟩
  exact admitted

variable [Introspection W] [NativeCode W] [Introspection W'] [NativeCode W']

/-- A fault of a callback is stashed on both sides. -/
theorem Coupling.conclude (coupling : Coupling admits R) (verdict : Verdict) :
    Couples R (Process.conclude verdict) (Process.conclude verdict) := by
  intro process variants related
  cases verdict with
  | fail cause => exact agree_pair _ (coupling.stash cause process variants related)
  | claim | forward | breakdown => exact agree_pair _ related

/-- Breakdowns are contained alike. -/
theorem Coupling.contain (coupling : Coupling admits R) (outcome : FilterOutcome) :
    Couples R (fun process => Process.contain (outcome, process))
      (fun process => Process.contain (outcome, process)) := by
  intro process variants related
  cases outcome with
  | broken => exact agree_pair _ (coupling.stash _ process variants related)
  | forward | claimed | failed => exact agree_pair _ related

/-- Calls are answered alike; one that is passed on has to be of the admitted kind still, since the
compiler is only related for those. -/
theorem Coupling.answer (coupling : Coupling admits R) (slot : Slot) {call : CompileCall}
    {outcome : FilterOutcome}
    (admitted : ∀ event, outcome = .forward event → admits (call.withEvent event)) :
    Couples R (fun process => Process.answer slot call (outcome, process))
      (fun process => Process.answer slot call (outcome, process)) := by
  cases outcome with
  | forward event => exact coupling.passOn slot _ (admitted event rfl)
  | claimed | failed | broken => exact fun process variants related => agree_pair _ related

/-- An entry is coupled if the filtering behind it is. With `couples_sift`, which is by recursion on
the levels left, this couples whole calls. -/
theorem couples_enterWith (coupling : Coupling admits R)
    {sift : CompileEvent → Process C W → FilterOutcome × Process C W}
    {sift' : CompileEvent → Process C' W' → FilterOutcome × Process C' W'}
    (sifts : CouplesSifts admits R sift sift') {call : CompileCall} (admitted : admits call) :
    Couples R (Process.enterWith sift call) (Process.enterWith sift' call) := by
  have routes (slot : Slot) :
      Couples R (Process.route sift slot call) (Process.route sift' slot call) := by
    intro process variants related
    simp only [route_eq]
    split
    next => exact coupling.passOn slot call admitted process variants related
    next =>
      obtain ⟨⟨sifted, same, related⟩, edited⟩ :=
        sifts call admitted slot.layout process variants related
      simp only [same]
      generalize sift (call.event slot.layout) process = result at related edited ⊢
      obtain ⟨contained, same, related⟩ := coupling.contain result.1 result.2 sifted related
      simp only [same]
      exact coupling.answer slot
        (fun event forwarded => edited event (contain_eq_forward forwarded))
        (Process.contain result).2 contained related
  intro process variants related
  simp only [enterWith_eq, coupling.entrance related call admitted]
  cases process.entrance call with
  | error result => exact agree_pair _ related
  | ok slot => exact routes slot process variants related

/-- Filtering comes to the same in coupled processes, at any depth of nesting. -/
theorem couples_siftWithin (coupling : Coupling admits R) (levels : Nat) :
    CouplesSifts admits R (Process.siftWithin levels) (Process.siftWithin levels) := by
  intro call admitted layout process variants related
  -- A call that the callback makes meets the filter with one level less.
  induction levels generalizing call layout process variants with
  | zero => exact agreeSifted_forward admitted layout related
  | succ levels ih =>
    have sifts : CouplesSifts admits R (Process.siftWithin levels) (Process.siftWithin levels) :=
      fun call admitted layout process variants related =>
        ih call admitted layout process variants related
    simp only [Process.siftWithin, coupling.depth related]
    cases request_eq : (call.event layout).request? with
    | none => exact agreeSifted_forward admitted layout related
    | some request =>
      dsimp only
      split
      next => exact agreeSifted_forward admitted layout related
      next =>
        obtain ⟨asked, same, related⟩ :=
          coupling.isTarget call admitted layout request request_eq process variants related
        simp only [same]
        generalize process.isTarget request = result at related ⊢
        obtain ⟨isTarget, after⟩ := result
        cases isTarget with
        | false => exact agreeSifted_forward admitted layout related
        | true =>
          obtain ⟨callback', installed, paired⟩ := coupling.callback related
          simp only [Bool.not_true, installed]
          dsimp only at paired
          cases present : after.filter.callback with
          | none =>
            rw [present] at paired
            cases paired
            exact agreeSifted_forward admitted layout related
          | some callback =>
            rw [present] at paired
            cases paired with
            | some couples =>
              have entered := coupling.begins after asked related
              obtain ⟨⟨ran, same, related⟩, edited⟩ := couples _ _ sifts
                (fun call => couples_enterWith coupling sifts) call admitted layout _ _ entered
              simp only [same]
              generalize (callback (call.event layout)).run (Process.enterWith
                (Process.siftWithin levels)) (Process.siftWithin levels)
                (after.onFilter .enter) = ended at related edited ⊢
              obtain ⟨verdict, final⟩ := ended
              refine ⟨coupling.conclude (verdict.getD .breakdown) _ _
                (coupling.ends final ran related), fun event forwarded => edited event ?_⟩
              cases verdict with
              | none => cases forwarded
              | some verdict =>
                cases verdict <;> cases forwarded
                rfl

/-- Filtering is coupled, however deeply the callbacks nest. -/
theorem couples_sift (coupling : Coupling admits R) :
    CouplesSifts admits R Process.sift Process.sift := by
  intro call admitted layout process variants related
  simp only [Process.sift, coupling.depth related]
  exact couples_siftWithin coupling _ call admitted layout process variants related

/-- A call comes to the same in coupled processes, with all that is nested in it. -/
theorem couples_enter (coupling : Coupling admits R) {call : CompileCall}
    (admitted : admits call) : Couples R (Process.enter call) (Process.enter call) :=
  couples_enterWith coupling (couples_sift coupling) admitted

end

end CilCapture.Compile
