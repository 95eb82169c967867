import CilCapture.Engine.Adapter
import CilCapture.Proofs.Compile.Wiring

/-!
# What a process keeps of its world

A condition on the world that the engine, the compiler and the callback keep is kept by whatever is
carried out (`keeping_perform`), at any depth of nesting. What an errand or a callback does itself
is read off its program: `Errand.Keeps` and `Response.Keeps` say that it stores only worlds of which
the condition holds, if it was started in one. While the filter is disarmed nothing but the world
changes (`perform_disarmed`).

The statements are about programs, not about runs: whether an errand keeps a condition can be read
off its constructors, for any results of the calls in it. `keeping_run` is the induction that makes
a statement about runs of it.

An errand that compiles something while the filter is armed runs the callback, so the callback is
part of the condition (`Keeping`); an errand at rest does not need it.
-/

namespace CilCapture.Compile

open Engine

variable {C W α β ε : Type} {holds : W → Prop}

/-! ## Errands and responses -/

def Errand.Keeps (holds : W → Prop) : Errand ε W α → Prop
  | .done _ => True
  | .observe next => ∀ world, holds world → (next world).Keeps holds
  | .store world next => holds world ∧ next.Keeps holds
  | .compile _ next => ∀ result, (next result).Keeps holds

/-- A step of the world that keeps a condition does so as an errand. -/
theorem Errand.keeps_ofStep {step : EStateM ε W α} (keeps : CilCapture.Keeps holds step) :
    (Errand.ofStep step).Keeps holds := by
  intro world here
  have there := keeps world here
  dsimp only
  cases taken : step world with
  | ok value after =>
    rw [taken] at there
    exact ⟨there, trivial⟩
  | error failure after =>
    rw [taken] at there
    exact ⟨there, trivial⟩

/-- Every errand keeps a condition that always holds. -/
theorem Errand.keeps_true (errand : Errand ε W α) : errand.Keeps fun _ => True := by
  induction errand with
  | done result => trivial
  | observe next ih => exact fun world _ => ih world
  | store world next ih => exact ⟨trivial, ih⟩
  | compile call next ih => exact ih

namespace Response

def Keeps (holds : W → Prop) : Response C W α → Prop
  | .finish _ => True
  | .observe next => ∀ client world, holds world → (next client world).Keeps holds
  | .countDepth next => ∀ depth, (next depth).Keeps holds
  | .store _ world next => holds world ∧ next.Keeps holds
  | .report _ next => next.Keeps holds
  | .arm _ next => next.Keeps holds
  | .compile _ next => ∀ result, (next result).Keeps holds
  | .sift _ next => ∀ outcome, (next outcome).Keeps holds

/-- Responses that keep a condition keep it one after the other. -/
theorem Keeps.andThen {response : Response C W α} {next : α → Response C W β}
    (first : response.Keeps holds) (second : ∀ value, (next value).Keeps holds) :
    (response.andThen next).Keeps holds := by
  induction response with
  | finish value => exact second value
  | observe rest ih => exact fun client world here => ih client world (first client world here)
  | countDepth rest ih => exact fun depth => ih depth (first depth)
  | store client world rest ih => exact ⟨first.1, ih first.2⟩
  | report notice rest ih => exact ih first
  | arm method rest ih => exact ih first
  | compile call rest ih => exact fun result => ih result (first result)
  | sift event rest ih => exact fun outcome => ih outcome (first outcome)

end Response

/-! ## The engine and the compiler -/

/-- Placing code keeps the condition. -/
def PlacingKeeps [CodeSpace W] (holds : W → Prop) : Prop :=
  ∀ code, CilCapture.Keeps holds (CodeSpace.place code)

/-- The routines of the compiler and its interface keep the condition. -/
structure NativeKeeps [NativeCode W] (holds : W → Prop) : Prop where
  compile : ∀ {world : W}, holds world → ∀ function call,
    holds (NativeCode.compile function call world).2
  clauseInfo : ∀ {world : W}, holds world → ∀ function this method index,
    holds (NativeCode.clauseInfo function this method index world).2

/-- Answering questions about methods keeps the condition. -/
structure AnsweringKeeps [Introspection W] (holds : W → Prop) : Prop where
  isValueTypeMember : ∀ method,
    CilCapture.Keeps holds (Introspection.isValueTypeMember (W := W) method)
  instantiatingStub : ∀ method,
    CilCapture.Keeps holds (Introspection.instantiatingStub (W := W) method)
  unboxingStub : ∀ method, CilCapture.Keeps holds (Introspection.unboxingStub (W := W) method)

/-- Making an address callable places at most one adapter, and so keeps what placing code keeps. -/
theorem keeps_callable [CodeSpace W] (placing : PlacingKeeps holds) (architecture : Architecture)
    (width : Nat) (address : Address) (source : Convention) :
    CilCapture.Keeps holds (callable architecture width address source) := by
  unfold callable convert
  split
  next => exact keeps_throw _
  next =>
    split
    next => exact keeps_pure _
    next =>
      split
      next => exact keeps_throw _
      next =>
        split
        next => exact keeps_throw _
        next => exact keeps_pure _
        next => exact placing _

section

variable [Introspection W]

/-- The rule for members of value types only asks questions. -/
theorem keeps_ofValueTypes (answering : AnsweringKeeps holds)
    {stub : Handle → EStateM Fault W Handle}
    (keeps : ∀ method, CilCapture.Keeps holds (stub method))
    (method : Handle) : CilCapture.Keeps holds (Resolver.ofValueTypes stub method) := by
  unfold Resolver.ofValueTypes
  split
  next => exact keeps_pure _
  next =>
    refine (answering.isValueTypeMember method).bind fun isMember => ?_
    cases isMember with
    | false => exact keeps_pure _
    | true => exact keeps method

/-- Resolving a handle keeps the condition, whatever the resolver remembers. -/
theorem holds_resolve (answering : AnsweringKeeps holds) (resolver : Resolver) (method : Handle)
    {world : W} (here : holds world) :
    holds (finalState (resolver.resolve method world)).2 := by
  induction resolver with
  | passthrough => exact here
  | instantiating =>
    have kept := keeps_ofValueTypes answering answering.instantiatingStub method world here
    unfold Resolver.resolve
    split <;> rename_i taken <;> rw [taken] at kept <;> exact kept
  | unboxing =>
    have kept := keeps_ofValueTypes answering answering.unboxingStub method world here
    unfold Resolver.resolve
    split <;> rename_i taken <;> rw [taken] at kept <;> exact kept
  | caching inner known ih =>
    unfold Resolver.resolve
    split
    next => exact here
    next => split <;> rename_i taken <;> rw [taken] at ih <;> exact ih

end

/-- Looking whether a request is for the armed method only asks questions. -/
theorem holds_isTarget [Introspection W] (answering : AnsweringKeeps holds)
    (request : CompileRequest) {process : Process C W} (here : holds process.world) :
    holds (process.isTarget request).2.world := by
  have there := holds_resolve answering process.filter.resolver request.methodHandle here
  unfold Process.isTarget
  dsimp only
  split
  next => exact here
  next => split <;> rename_i taken <;> rw [taken] at there <;> exact there

/-! ## The process -/

/-- A process in whose world a condition holds, which the callback keeps. -/
structure Keeping (holds : W → Prop) (process : Process C W) : Prop where
  here : holds process.world
  callback : ∀ callback, process.filter.callback = some callback →
    ∀ event, (callback event).Keeps holds

/-- A process still keeps a condition in any world where it holds. -/
theorem Keeping.withWorld {process : Process C W} (keeping : Keeping holds process) {world : W}
    (there : holds world) : Keeping holds { process with world } :=
  ⟨there, keeping.callback⟩

/-- The callback's state is not part of the condition. -/
theorem Keeping.withClient {process : Process C W} (keeping : Keeping holds process) (client : C)
    {world : W} (there : holds world) : Keeping holds { process with client, world } :=
  ⟨there, keeping.callback⟩

/-- Only the callback of the filter matters. -/
theorem Keeping.onFilter {process : Process C W} (keeping : Keeping holds process)
    {change : Filter C W → Filter C W}
    (same : (change process.filter).callback = process.filter.callback) :
    Keeping holds (process.onFilter change) :=
  ⟨keeping.here, fun callback eq => keeping.callback callback (same.symm.trans eq)⟩

/-- A step of a process that keeps what it keeps. -/
def KeepsKeeping (holds : W → Prop) (step : Process C W → α × Process C W) : Prop :=
  ∀ process, Keeping holds process → Keeping holds (step process).2

/-- A callback that keeps a condition does so with all that it calls, if its calls do. -/
theorem keeping_run {enter : CompileCall → Process C W → Int32 × Process C W}
    {sift : CompileEvent → Process C W → FilterOutcome × Process C W}
    (enters : ∀ call, KeepsKeeping holds (enter call))
    (sifts : ∀ event, KeepsKeeping holds (sift event)) {response : Response C W α}
    (keeps : response.Keeps holds) : KeepsKeeping holds (response.run enter sift) := by
  intro process keeping
  induction response generalizing process with
  | finish value => exact keeping
  | observe next ih => exact ih _ _ (keeps _ _ keeping.here) process keeping
  | countDepth next ih => exact ih _ (keeps _) process keeping
  | store client world next ih => exact ih keeps.2 _ (keeping.withClient client keeps.1)
  | report notice next ih => exact ih keeps _ ⟨keeping.here, keeping.callback⟩
  | arm method next ih => exact ih keeps _ (keeping.onFilter rfl)
  | compile call next ih => exact ih _ (keeps _) _ (enters call process keeping)
  | sift event next ih =>
    have kept := sifts event process keeping
    rw [Response.run]
    split <;> rename_i sifted <;> rw [sifted] at kept
    · exact kept
    · exact ih _ (keeps _) _ kept

/-- Concluding from a verdict leaves the world alone. -/
theorem keeping_conclude (verdict : Verdict) {process : Process C W}
    (keeping : Keeping holds process) : Keeping holds (Process.conclude verdict process).2 := by
  cases verdict with
  | claim => exact keeping
  | forward event => exact keeping
  | fail cause => exact keeping.onFilter rfl
  | breakdown => exact keeping

/-- Containing a breakdown leaves the world alone. -/
theorem keeping_contain {result : FilterOutcome × Process C W}
    (keeping : Keeping holds result.2) : Keeping holds (Process.contain result).2 := by
  obtain ⟨outcome, process⟩ := result
  cases outcome with
  | broken => exact keeping.onFilter rfl
  | forward event => exact keeping
  | claimed => exact keeping
  | failed => exact keeping

/-- Looking for the target keeps the condition and the callback. -/
theorem keeping_isTarget [Introspection W] (answering : AnsweringKeeps holds)
    (request : CompileRequest) : KeepsKeeping (C := C) holds (Process.isTarget request) := by
  intro process keeping
  have same : (process.isTarget request).2.filter.callback = process.filter.callback :=
    congrArg Wiring.callback (wiring_isTarget request process)
  exact ⟨holds_isTarget answering request keeping.here,
    fun callback eq => keeping.callback callback (same.symm.trans eq)⟩

section

variable [NativeCode W]

/-- An entry keeps what native calls and filtering keep. -/
theorem keeping_enterWith (native : NativeKeeps holds)
    {sift : CompileEvent → Process C W → FilterOutcome × Process C W}
    (sifts : ∀ event, KeepsKeeping holds (sift event)) (call : CompileCall) :
    KeepsKeeping holds (Process.enterWith sift call) := by
  have passed {process : Process C W} (keeping : Keeping holds process) (slot : Slot)
      (call : CompileCall) : Keeping holds
        { process with world := (NativeCode.compile slot.replaced call process.world).2 } :=
    keeping.withWorld (native.compile keeping.here _ _)
  have routed (slot : Slot) : KeepsKeeping holds (Process.route sift slot call) := by
    intro process keeping
    have kept := keeping_contain (sifts (call.event slot.layout) process keeping)
    unfold Process.route
    dsimp only
    split
    next => exact passed keeping slot call
    next =>
      split <;> rename_i contained <;> rw [contained] at kept
      · exact passed kept slot _
      · exact kept
      · exact kept
  intro process keeping
  rw [enterWith_eq]
  cases process.entrance call with
  | error result => exact keeping
  | ok slot => exact routed slot process keeping

variable [Introspection W]

/-- Filtering keeps what the callback keeps, at any depth of nesting. -/
theorem keeping_siftWithin (native : NativeKeeps holds) (answering : AnsweringKeeps holds)
    (levels : Nat) (event : CompileEvent) :
    KeepsKeeping (C := C) holds (Process.siftWithin levels event) := by
  intro process keeping
  induction levels generalizing event process with
  | zero => exact keeping
  | succ levels ih =>
    unfold Process.siftWithin
    cases event.request? with
    | none => exact keeping
    | some request =>
      dsimp only
      split
      next => exact keeping
      next =>
        have asked := keeping_isTarget answering request process keeping
        rcases answered : process.isTarget request with ⟨isTarget, after⟩
        rw [answered] at asked
        cases isTarget with
        | false => exact asked
        | true =>
          simp only [Bool.not_true]
          cases installed : after.filter.callback with
          | none => exact asked
          | some callback =>
            have entering : Keeping holds (after.onFilter .enter) := asked.onFilter rfl
            have ran := keeping_run (keeping_enterWith native ih) ih
              (asked.callback callback installed event) _ entering
            exact keeping_conclude _ (ran.onFilter rfl)

/-- A call keeps what its parts keep, at any depth of callbacks. -/
theorem keeping_enter (native : NativeKeeps holds) (answering : AnsweringKeeps holds)
    (call : CompileCall) : KeepsKeeping (C := C) holds (Process.enter call) :=
  keeping_enterWith native
    (fun event process =>
      keeping_siftWithin native answering (maxDepth + 1 - process.filter.depth) event process)
    call

/-- What an errand and the callbacks that it causes to run all keep is kept. -/
theorem keeping_perform (native : NativeKeeps holds) (answering : AnsweringKeeps holds)
    {errand : Errand ε W α} (keeps : errand.Keeps holds) {process : Process C W}
    (keeping : Keeping holds process) :
    Keeping holds (finalState (Process.perform errand process)) := by
  induction errand generalizing process with
  | done result => cases result <;> exact keeping
  | observe next ih => exact ih _ (keeps _ keeping.here) keeping
  | store world next ih => exact ih keeps.2 (keeping.withWorld keeps.1)
  | compile call next ih =>
    exact ih _ (keeps _) (keeping_enter native answering call process keeping)

/-! ## The disarmed filter -/

/-- A call that arrives while the filter is disarmed at most reaches the compiler. -/
theorem enter_disarmed (native : NativeKeeps holds) {process : Process C W}
    (disarmed : process.filter.targetMethod = 0) (here : holds process.world) (call : CompileCall) :
    ∃ result world, process.enter call = (result, { process with world }) ∧ holds world := by
  have passed (slot : Slot) (call : CompileCall) :
      ∃ result world, process.passOn slot call = (result, { process with world }) ∧ holds world :=
    ⟨_, _, rfl, native.compile here _ _⟩
  rw [Process.enter, enterWith_eq]
  cases process.entrance call with
  | error result => exact ⟨result, process.world, rfl, here⟩
  | ok slot =>
    dsimp only
    rw [route_eq]
    split
    next => exact passed slot call
    next =>
      rw [Process.sift, siftWithin_disarmed disarmed]
      exact passed slot call

/-- An errand that is carried out while the filter is disarmed changes nothing but the world. -/
theorem perform_disarmed (native : NativeKeeps holds) {errand : Errand ε W α}
    (keeps : errand.Keeps holds) {process : Process C W}
    (disarmed : process.filter.targetMethod = 0) (here : holds process.world) :
    ∃ world, finalState (Process.perform errand process) = { process with world } ∧
      holds world := by
  induction errand generalizing process with
  | done result => cases result <;> exact ⟨process.world, rfl, here⟩
  | observe next ih => exact ih _ (keeps process.world here) disarmed here
  | store world next ih => exact @ih keeps.2 { process with world } disarmed keeps.1
  | compile call next ih =>
    obtain ⟨result, world, entered, there⟩ := enter_disarmed native disarmed here call
    rw [Process.perform, entered]
    exact @ih result (keeps result) { process with world } disarmed there

end

end CilCapture.Compile
