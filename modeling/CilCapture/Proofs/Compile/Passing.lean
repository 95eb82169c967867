import CilCapture.Proofs.Compile.Coupling
import CilCapture.Proofs.Compile.Nesting

/-!
# What is passed on to the compiler

Which calls the replaced routines receive is told by a world that keeps a record of them, and is the
same world otherwise. The record is only kept, never read, so a process with it does the same as
without (`enter_recorded`, `run_recorded`), and what is recorded in the course of a run are the
calls that are passed on in the course of each request that the run makes, one after another.

What one call adds itself, besides what the callback asks for in the course of it, is at most one:
`Routed` says which one and when, and `SameDecision` that the two entry points do not differ in it.

The record is kept by the world, so that a process with it is a process like any other and the
definitions are not repeated for it. Variants by what was recorded before (`Records`) are what says
that a record is only added to.

What is decided about a call is said in two steps: what the filter makes of it (`Decides`) and what
that means for each verdict of the callback (`FollowsVerdict`). A host is any response, so calls may
come in any order, from any thread, and depend on the results of those before.
-/

namespace CilCapture.Compile

open Engine

variable {C W α : Type}

/-! ## A record of calls -/

/-- A call that a routine of the compiler received. -/
structure Passing where
  function : Address
  call : CompileCall
  deriving DecidableEq, Repr

/-- A world with a record of the calls to its compiler. -/
structure Recorded (W : Type) where
  world : W
  passings : List Passing

namespace Recorded

/-- A step of the world that leaves the record as it is. -/
def lift {ε : Type} (step : EStateM ε W α) : EStateM ε (Recorded W) α := fun recorded =>
  match step recorded.world with
  | .ok value world => .ok value { recorded with world }
  | .error failure world => .error failure { recorded with world }

instance [Introspection W] : Introspection (Recorded W) where
  isValueTypeMember method := lift (Introspection.isValueTypeMember method)
  instantiatingStub method := lift (Introspection.instantiatingStub method)
  unboxingStub method := lift (Introspection.unboxingStub method)

instance [NativeCode W] : NativeCode (Recorded W) where
  word address recorded := NativeCode.word address recorded.world
  clauseInfo function this method index recorded :=
    let (clause, world) := NativeCode.clauseInfo function this method index recorded.world
    (clause, { recorded with world })
  compile function call recorded :=
    let (result, world) := NativeCode.compile function call recorded.world
    (result, ⟨world, recorded.passings ++ [⟨function, call⟩]⟩)
  call function arguments :=
    (NativeCode.call function arguments).within Recorded.world
      fun world recorded => { recorded with world }

end Recorded

/-- What a response does in a world with a record, which it leaves as it is. -/
def Response.recording : Response C W α → Response C (Recorded W) α
  | .finish value => .finish value
  | .observe next => .observe fun client recorded => (next client recorded.world).recording
  | .countDepth next => .countDepth fun depth => (next depth).recording
  | .store client world next =>
    .observe fun _ recorded => .store client { recorded with world } next.recording
  | .report notice next => .report notice next.recording
  | .arm method next => .arm method next.recording
  | .compile call next => .compile call fun result => (next result).recording
  | .sift event next => .sift event fun outcome => (next outcome).recording

def Callback.recording (callback : Callback C W) : Callback C (Recorded W) :=
  fun event => (callback event).recording

namespace Process

/-- The process with a record of the calls that were passed on. -/
def recorded (process : Process C W) (passings : List Passing) : Process C (Recorded W) where
  filter :=
    { resolver := process.filter.resolver
      targetModule := process.filter.targetModule
      targetMethod := process.filter.targetMethod
      callback := process.filter.callback.map Callback.recording
      depth := process.filter.depth
      stashed := process.filter.stashed }
  methodSlot := process.methodSlot
  compSlot := process.compSlot
  sessionHeld := process.sessionHeld
  client := process.client
  world := ⟨process.world, passings⟩
  notices := process.notices

variable [Introspection W] [NativeCode W]

/-- The calls that are passed on in the course of a call. -/
def passingsOf (call : CompileCall) (process : Process C W) : List Passing :=
  ((process.recorded []).enter call).2.world.passings

/-- The calls that are passed on in the course of filtering an event. -/
def passingsSifting (event : CompileEvent) (process : Process C W) : List Passing :=
  ((process.recorded []).sift event).2.world.passings

end Process

/-- What a response asks of the compiler or of the filter, with the process that is there then. -/
inductive Asked (C W : Type) where
  | entering (call : CompileCall) (found : Process C W)
  | sifting (event : CompileEvent) (found : Process C W)

def Asked.found : Asked C W → Process C W
  | .entering _ found => found
  | .sifting _ found => found

section

variable [Introspection W] [NativeCode W]

/-- The calls that are passed on in the course of a request. -/
def Asked.passings : Asked C W → List Passing
  | .entering call found => found.passingsOf call
  | .sifting event found => found.passingsSifting event

/-- What a response asks, one after another. -/
def Response.asks : Response C W α → Process C W → List (Asked C W)
  | .finish _, _ => []
  | .observe next, process => (next process.client process.world).asks process
  | .countDepth next, process => (next process.filter.depth).asks process
  | .store client world next, process => next.asks { process with client, world }
  | .report notice next, process => next.asks (process.report [notice])
  | .arm method next, process =>
    next.asks (process.onFilter fun filter => { filter with targetMethod := method })
  | .compile call next, process =>
    .entering call process :: (next (process.enter call).1).asks (process.enter call).2
  | .sift event next, process =>
    .sifting event process ::
      match process.sift event with
      | (.broken, _) => []
      | (outcome, process) => (next outcome).asks process

/-- The calls that are passed on in the course of a response. -/
def Response.passings (response : Response C W α) (process : Process C W) : List Passing :=
  (response.asks process).flatMap Asked.passings

end

/-! ## Recording changes nothing -/

/-- A process and its variants by what was recorded before. -/
def Records (process : Process C W) (variants : List Passing → Process C (Recorded W)) : Prop :=
  ∃ passings, variants = fun earlier => process.recorded (earlier ++ passings)

/-- The rule for members of value types passes no call on. -/
theorem ofValueTypes_recorded [Introspection W] (stub : Handle → EStateM Fault W Handle)
    (method : Handle) :
    Resolver.ofValueTypes (fun method => Recorded.lift (stub method)) method =
      Recorded.lift (Resolver.ofValueTypes stub method) := by
  funext recorded
  unfold Resolver.ofValueTypes
  split
  next => rfl
  next =>
    have asked (world : W) : Introspection.isValueTypeMember method (⟨world, recorded.passings⟩ :
        Recorded W) = Recorded.lift (Introspection.isValueTypeMember method)
          ⟨world, recorded.passings⟩ := rfl
    simp only [bind, EStateM.bind, asked, Recorded.lift]
    cases Introspection.isValueTypeMember method recorded.world with
    | error fault world => rfl
    | ok isMember world => cases isMember <;> rfl

/-- Resolving a handle passes no call on. -/
theorem resolve_recorded [Introspection W] (resolver : Resolver) (method : Handle) (world : W)
    (passings : List Passing) :
    resolver.resolve method (⟨world, passings⟩ : Recorded W) =
      match resolver.resolve method world with
      | .ok resolved (resolver, world) => .ok resolved (resolver, ⟨world, passings⟩)
      | .error fault (resolver, world) => .error fault (resolver, ⟨world, passings⟩) := by
  induction resolver with
  | passthrough => rfl
  | instantiating =>
    have answered := congrFun
      (ofValueTypes_recorded (W := W) Introspection.instantiatingStub method) ⟨world, passings⟩
    unfold Resolver.resolve
    change Resolver.ofValueTypes Introspection.instantiatingStub method _ = _ at answered
    rw [answered, Recorded.lift]
    dsimp only
    cases Resolver.ofValueTypes Introspection.instantiatingStub method world <;> rfl
  | unboxing =>
    have answered := congrFun (ofValueTypes_recorded (W := W) Introspection.unboxingStub method)
      ⟨world, passings⟩
    unfold Resolver.resolve
    change Resolver.ofValueTypes Introspection.unboxingStub method _ = _ at answered
    rw [answered, Recorded.lift]
    dsimp only
    cases Resolver.ofValueTypes Introspection.unboxingStub method world <;> rfl
  | caching inner known ih =>
    unfold Resolver.resolve
    cases known.lookup method with
    | some resolved => rfl
    | none =>
      dsimp only
      rw [ih]
      cases inner.resolve method world <;> rfl

/-- Looking for the target passes no call on. -/
theorem isTarget_recorded [Introspection W] (request : CompileRequest) (process : Process C W)
    (passings : List Passing) :
    (process.recorded passings).isTarget request =
      ((process.isTarget request).1, (process.isTarget request).2.recorded passings) := by
  unfold Process.isTarget
  dsimp only [Process.recorded]
  split
  next => rfl
  next =>
    rw [resolve_recorded]
    cases process.filter.resolver.resolve request.methodHandle process.world <;> rfl

/-- A record makes no event wanted or unwanted. -/
theorem wants_recorded [Introspection W] {event : CompileEvent} {process : Process C W}
    {passings : List Passing} : (process.recorded passings).Wants event ↔ process.Wants event := by
  have resolves (method : Handle) :
      (∃ after, process.filter.resolver.resolve method (⟨process.world, passings⟩ : Recorded W) =
        .ok process.filter.targetMethod after) ↔
      ∃ after, process.filter.resolver.resolve method process.world =
        .ok process.filter.targetMethod after := by
    rw [resolve_recorded]
    cases process.filter.resolver.resolve method process.world with
    | ok resolved after => simp
    | error fault after => simp
  have present : (process.recorded passings).filter.callback.isSome ↔
      process.filter.callback.isSome := by
    change (process.filter.callback.map _).isSome ↔ _
    rw [Option.isSome_map]
  exact and_congr (exists_congr fun info => and_congr_right fun _ => and_congr_right fun _ =>
    and_congr_right fun _ => resolves info.methodHandle) (and_congr_left fun _ => present)

/-- What the filter asks before it decides passes no call on. -/
theorem asked_recorded [Introspection W] (event : CompileEvent) (process : Process C W)
    (passings : List Passing) :
    (process.recorded passings).asked event = (process.asked event).recorded passings := by
  unfold Process.asked
  cases event.request? with
  | none => rfl
  | some request =>
    have same_depth : (process.recorded passings).filter.depth = process.filter.depth := rfl
    dsimp only
    rw [same_depth, isTarget_recorded]
    split <;> rfl

/-- A response adds to a record what its calls add to it. The induction is on the response. -/
theorem records_run {enter : CompileCall → Process C W → Int32 × Process C W}
    {sift : CompileEvent → Process C W → FilterOutcome × Process C W}
    {enter' : CompileCall → Process C (Recorded W) → Int32 × Process C (Recorded W)}
    {sift' : CompileEvent → Process C (Recorded W) → FilterOutcome × Process C (Recorded W)}
    (enters : ∀ call, Couples Records (enter call) (enter' call))
    (sifts : ∀ event, Couples Records (sift event) (sift' event)) (response : Response C W α) :
    Couples Records (response.run enter sift) (response.recording.run enter' sift') := by
  rintro process _ ⟨passings, rfl⟩
  induction response generalizing process passings with
  | finish value => exact agree_pair _ ⟨passings, rfl⟩
  | observe next ih => exact ih _ _ process passings
  | countDepth next ih => exact ih _ process passings
  | store client world next ih => exact ih { process with client, world } passings
  | report notice next ih => exact ih (process.report [notice]) passings
  | arm method next ih =>
    exact ih (process.onFilter fun filter => { filter with targetMethod := method }) passings
  | compile call next ih =>
    obtain ⟨_, same, passings, rfl⟩ := enters call process _ ⟨passings, rfl⟩
    simp only [Response.recording, Response.run, same]
    exact ih _ _ passings
  | sift event next ih =>
    obtain ⟨_, same, passings, rfl⟩ := sifts event process _ ⟨passings, rfl⟩
    simp only [Response.recording, Response.run, same]
    generalize sift event process = result
    obtain ⟨outcome, after⟩ := result
    cases outcome with
    | broken => exact agree_pair _ ⟨passings, rfl⟩
    | forward | claimed | failed => exact ih _ _ passings

section

variable [Introspection W] [NativeCode W]

/-- A record grows by the same calls, whatever it held. -/
theorem coupling_records : Coupling (fun _ => True) (Records (C := C) (W := W)) where
  entrance := by
    rintro process _ ⟨passings, rfl⟩ call - earlier
    rfl
  depth := by
    rintro process _ ⟨passings, rfl⟩ earlier
    rfl
  isTarget := by
    rintro call - layout request - process _ ⟨passings, rfl⟩
    exact ⟨_, fun earlier => isTarget_recorded request process _, passings, rfl⟩
  callback := by
    rintro process _ ⟨passings, rfl⟩
    refine ⟨process.filter.callback.map Callback.recording, fun _ => rfl, ?_⟩
    cases process.filter.callback with
    | none => exact .none
    | some callback =>
      refine .some fun sift sift' sifts enters call _ layout process variants related => ?_
      exact ⟨records_run (fun call => enters call trivial) sifts.event _ process variants related,
        fun _ _ => trivial⟩
  begins := by
    rintro process _ ⟨passings, rfl⟩
    exact ⟨passings, rfl⟩
  ends := by
    rintro process _ ⟨passings, rfl⟩
    exact ⟨passings, rfl⟩
  stash := by
    rintro fault process _ ⟨passings, rfl⟩
    exact ⟨passings, rfl⟩
  passOn := by
    rintro slot call - process _ ⟨passings, rfl⟩
    refine ⟨fun earlier => (process.passOn slot call).2.recorded
      (earlier ++ (passings ++ [⟨slot.replaced, call⟩])), fun earlier => ?_, _, rfl⟩
    dsimp only
    rw [← List.append_assoc]
    rfl

/-- A call comes to the same with a record, in which the calls that it passes on are entered. -/
theorem enter_recorded (call : CompileCall) (process : Process C W) (earlier : List Passing) :
    (process.recorded earlier).enter call = ((process.enter call).1,
      (process.enter call).2.recorded (earlier ++ process.passingsOf call)) := by
  obtain ⟨_, same, passings, rfl⟩ :=
    couples_enter coupling_records (show (fun _ => True) call from trivial) process _ ⟨[], rfl⟩
  simp only [List.append_nil] at same
  have passings_eq : process.passingsOf call = passings := by
    rw [Process.passingsOf, same]
    rfl
  rw [passings_eq, same]

/-- Filtering adds the same calls to every record and comes to what it comes to without one. -/
theorem sift_recorded (event : CompileEvent) (process : Process C W) (earlier : List Passing) :
    (process.recorded earlier).sift event = ((process.sift event).1,
      (process.sift event).2.recorded (earlier ++ process.passingsSifting event)) := by
  obtain ⟨_, same, passings, rfl⟩ :=
    (couples_sift coupling_records).event event process _ ⟨[], rfl⟩
  simp only [List.append_nil] at same
  have passings_eq : process.passingsSifting event = passings := by
    rw [Process.passingsSifting, same]
    rfl
  rw [passings_eq, same]

/-- A run comes to the same with a record, in which the calls that are passed on in the course of
each of its requests are entered one after another. -/
theorem run_recorded (response : Response C W α) (process : Process C W)
    (earlier : List Passing) :
    response.recording.run Process.enter Process.sift (process.recorded earlier) =
      ((response.run Process.enter Process.sift process).1,
        (response.run Process.enter Process.sift process).2.recorded
          (earlier ++ response.passings process)) := by
  induction response generalizing process earlier with
  | finish value =>
    rw [Response.passings, Response.asks, List.flatMap_nil, List.append_nil]
    rfl
  | observe next ih => exact ih _ _ process earlier
  | countDepth next ih => exact ih _ process earlier
  | store client world next ih => exact ih { process with client, world } earlier
  | report notice next ih => exact ih (process.report [notice]) earlier
  | arm method next ih =>
    exact ih (process.onFilter fun filter => { filter with targetMethod := method }) earlier
  | compile call next ih =>
    rw [Response.recording, Response.run, enter_recorded]
    refine (ih _ _ _).trans ?_
    rw [List.append_assoc]
    rfl
  | sift event next ih =>
    rw [Response.recording, Response.run, sift_recorded, Response.run, Response.passings,
      Response.asks, List.flatMap_cons, ← List.append_assoc, Asked.passings]
    generalize process.sift event = result
    obtain ⟨outcome, after⟩ := result
    cases outcome with
    | broken =>
      rw [List.flatMap_nil, List.append_nil]
    | forward | claimed | failed => exact ih _ _ _

/-! ## One event -/

/-- Without the callback nothing is called in the course of filtering. -/
theorem passingsSifting_of_not_wants {event : CompileEvent} {process : Process C W}
    (unwanted : ¬ process.Wants event) : process.passingsSifting event = [] := by
  rw [Process.passingsSifting, sift_of_not_wants (mt wants_recorded.mp unwanted), asked_recorded]
  rfl

/-- What the filter makes of a callback's end does not change the world. -/
theorem world_outcomeOf {V : Type} (ended : Option Verdict × Process C V) :
    (Process.outcomeOf ended).2.world = ended.2.world := by
  obtain ⟨verdict, after⟩ := ended
  cases verdict with
  | none => rfl
  | some verdict => cases verdict <;> rfl

/-- Otherwise it is what the callback asks for. -/
theorem passingsSifting_of_wants {event : CompileEvent} {process : Process C W}
    {callback : Callback C W} (wants : process.Wants event)
    (present : process.filter.callback = some callback) :
    process.passingsSifting event =
      (callback event).passings ((process.asked event).onFilter .enter) := by
  have recording : (process.recorded []).filter.callback = some callback.recording := by
    change process.filter.callback.map _ = _
    rw [present]
    rfl
  rw [Process.passingsSifting, sift_of_wants (wants_recorded.mpr wants) recording, asked_recorded,
    world_outcomeOf]
  change ((callback event).recording.run Process.enter Process.sift
    (((process.asked event).onFilter .enter).recorded [])).2.world.passings = _
  rw [run_recorded]
  rfl

/-! ## One call -/

/-- The call that an outcome has passed on. -/
def FilterOutcome.passings (slot : Slot) (call : CompileCall) : FilterOutcome → List Passing
  | .forward event => [⟨slot.replaced, call.withEvent event⟩]
  | .claimed | .failed | .broken => []

/-- What is decided about a call before a replaced routine is called, and which calls are passed on
until then. -/
structure Decides (slot : Slot) (call : CompileCall) (process : Process C W)
    (decision : FilterOutcome × Process C W) (nested : List Passing) : Prop where
  enter_eq : process.enter call = Process.answer slot call decision
  passings_eq : process.passingsOf call = nested ++ decision.1.passings slot call

section

variable {slot : Slot} {call : CompileCall} {process : Process C W}

/-- A call of another thread is decided without the filter. -/
theorem decides_of_foreign (served : process.entrance call = .ok slot)
    (foreign : call.thread ≠ slot.owner) :
    Decides slot call process (.forward (call.event slot.layout), process) [] := by
  have served' : (process.recorded []).entrance call = .ok slot := served
  constructor
  · rw [Process.enter, enterWith_eq, served]
    dsimp only
    rw [route_eq, if_pos foreign]
    rfl
  · rw [Process.passingsOf, Process.enter, enterWith_eq, served']
    dsimp only
    rw [route_eq, if_pos foreign]
    rfl

/-- On the owner's thread the filter decides, and what the callback has passed on comes before the
call itself. -/
theorem decides_of_own (served : process.entrance call = .ok slot)
    (own : call.thread = slot.owner) :
    Decides slot call process (Process.contain (process.sift (call.event slot.layout)))
      (process.passingsSifting (call.event slot.layout)) := by
  have served' : (process.recorded []).entrance call = .ok slot := served
  constructor
  · rw [Process.enter, enterWith_eq, served]
    dsimp only
    rw [route_eq, if_neg (not_not.mpr own)]
  · rw [Process.passingsOf, Process.enter, enterWith_eq, served']
    dsimp only
    rw [route_eq, if_neg (not_not.mpr own), sift_recorded]
    generalize process.sift (call.event slot.layout) = result
    obtain ⟨outcome, after⟩ := result
    cases outcome with
    | forward event => rfl
    | claimed | failed | broken => exact (List.append_nil _).symm

end

/-- What becomes of a call by the way that its callback ended, where `nested` are the calls passed
on for the callback. -/
def FollowsVerdict (slot : Slot) (call : CompileCall) (process : Process C W)
    (nested : List Passing) : Option Verdict × Process C W → Prop
  | (some .claim, after) =>
    process.enter call = (compileOk, after.onFilter .leave) ∧ process.passingsOf call = nested
  | (some (.forward edited), after) =>
    let call' := { call with
      jitInfo := edited.jitInfo
      info := edited.info
      nativeEntry := edited.nativeEntry
      nativeSize := edited.nativeSize }
    process.enter call = (after.onFilter .leave).passOn slot call' ∧
      process.passingsOf call = nested ++ [⟨slot.replaced, call'⟩]
  | (some (.fail cause), after) =>
    process.enter call = (compileFailed, (after.onFilter .leave).onFilter (.stash cause)) ∧
      process.passingsOf call = nested
  | (some .breakdown, after) | (none, after) =>
    process.enter call = (compileFailed, (after.onFilter .leave).onFilter
      (.stash (.nativeFault "compile callback panicked"))) ∧ process.passingsOf call = nested

/-- How a call that arrives at a slot is routed. -/
structure Routed (slot : Slot) (call : CompileCall) (process : Process C W) : Prop where
  /-- On another thread it is passed on as it is, and the filter has no part in it. -/
  foreign : call.thread ≠ slot.owner →
    process.enter call = process.passOn slot call ∧
      (process.enter call).2.filter = process.filter ∧
      process.passingsOf call = [⟨slot.replaced, call⟩]
  /-- On the owner's thread it is passed on as it is if it is none for the callback. -/
  unwanted : call.thread = slot.owner → ¬ process.Wants (call.event slot.layout) →
    process.enter call = (process.asked (call.event slot.layout)).passOn slot call ∧
      process.passingsOf call = [⟨slot.replaced, call⟩]
  /-- Otherwise the callback decides. -/
  wanted : call.thread = slot.owner → process.Wants (call.event slot.layout) →
    ∀ callback, process.filter.callback = some callback →
      FollowsVerdict slot call process
        ((callback (call.event slot.layout)).passings
          ((process.asked (call.event slot.layout)).onFilter .enter))
        ((callback (call.event slot.layout)).run Process.enter Process.sift
          ((process.asked (call.event slot.layout)).onFilter .enter))

/-- A call that is served is routed by its thread, by whether it is wanted, and by its callback's
verdict. -/
theorem routed_of_served {slot : Slot} {call : CompileCall} {process : Process C W}
    (served : process.entrance call = .ok slot) : Routed slot call process where
  foreign foreign := by
    obtain ⟨enter_eq, passings_eq⟩ := decides_of_foreign served foreign
    exact ⟨enter_eq, congrArg (fun result => result.2.filter) enter_eq, passings_eq⟩
  unwanted own unwanted := by
    obtain ⟨enter_eq, passings_eq⟩ := decides_of_own served own
    rw [sift_of_not_wants unwanted] at enter_eq passings_eq
    rw [passingsSifting_of_not_wants unwanted] at passings_eq
    exact ⟨enter_eq, passings_eq⟩
  wanted own wants callback present := by
    obtain ⟨enter_eq, passings_eq⟩ := decides_of_own served own
    rw [sift_of_wants wants present, Process.outcomeOf] at enter_eq passings_eq
    rw [passingsSifting_of_wants wants present] at passings_eq
    generalize (callback (call.event slot.layout)).run Process.enter Process.sift
      ((process.asked (call.event slot.layout)).onFilter .enter) = ended at enter_eq passings_eq ⊢
    obtain ⟨verdict, after⟩ := ended
    cases verdict with
    | none => exact ⟨enter_eq, passings_eq.trans (List.append_nil _)⟩
    | some verdict =>
      cases verdict with
      | forward edited => exact ⟨enter_eq, passings_eq⟩
      | claim | fail | breakdown => exact ⟨enter_eq, passings_eq.trans (List.append_nil _)⟩

/-- Two calls about which the same is decided: they return the same if what they are passed on to
does. -/
def SameDecision (slot slot' : Slot) (call call' : CompileCall) (process : Process C W) : Prop :=
  ∃ decision nested, Decides slot call process decision nested ∧
    Decides slot' call' process decision nested ∧
    ((∀ event, decision.1 = .forward event →
      decision.2.passOn slot (call.withEvent event) =
        decision.2.passOn slot' (call'.withEvent event)) →
      process.enter call = process.enter call')

/-- Two calls with one event and on the same side of their owners' threads are decided alike,
whichever entry each of them came in by. -/
theorem sameDecision_of_served {slot slot' : Slot} {call call' : CompileCall}
    {process : Process C W} (served : process.entrance call = .ok slot)
    (served' : process.entrance call' = .ok slot')
    (same_side : call.thread = slot.owner ↔ call'.thread = slot'.owner)
    (same_event : call.event slot.layout = call'.event slot'.layout) :
    SameDecision slot slot' call call' process := by
  have decided : ∃ decision nested, Decides slot call process decision nested ∧
      Decides slot' call' process decision nested := by
    by_cases own : call.thread = slot.owner
    · refine ⟨_, _, decides_of_own served own, ?_⟩
      rw [same_event]
      exact decides_of_own served' (same_side.mp own)
    · refine ⟨_, _, decides_of_foreign served own, ?_⟩
      rw [same_event]
      exact decides_of_foreign served' (mt same_side.mpr own)
  obtain ⟨⟨outcome, after⟩, nested, first, second⟩ := decided
  refine ⟨_, nested, first, second, fun passed => ?_⟩
  rw [first.enter_eq, second.enter_eq]
  cases outcome with
  | forward event => exact passed event rfl
  | claimed | failed | broken => rfl

end

/-! ## Many calls -/

/-- The slots of a call are part of the wiring. -/
theorem entrance_eq_of_wiring {process found : Process C W} (same : found.wiring = process.wiring)
    (call : CompileCall) : found.entrance call = process.entrance call := by
  unfold Process.entrance
  rw [show found.methodSlot = process.methodSlot from congrArg Wiring.methodSlot same,
    show found.compSlot = process.compSlot from congrArg Wiring.compSlot same]

section

variable [Introspection W] [NativeCode W]

/-- Whatever is asked for finds the process wired as it was in the beginning. -/
theorem wiring_of_mem_asks {response : Response C W α} {process : Process C W} {asked : Asked C W}
    (mem : asked ∈ response.asks process) : asked.found.wiring = process.wiring := by
  induction response generalizing process with
  | finish value => cases mem
  | observe next ih => exact ih _ _ mem
  | countDepth next ih => exact ih _ mem
  | store client world next ih => exact @ih { process with client, world } mem
  | report notice next ih => exact @ih (process.report [notice]) mem
  | arm method next ih =>
    exact @ih (process.onFilter fun filter => { filter with targetMethod := method }) mem
  | compile call next ih =>
    rcases List.mem_cons.mp mem with rfl | mem
    · rfl
    · exact (ih _ mem).trans (wiring_enter call process)
  | sift event next ih =>
    rw [Response.asks] at mem
    rcases List.mem_cons.mp mem with rfl | mem
    · rfl
    · have kept := leaves_sift steady_wiring event process
      generalize process.sift event = result at mem kept
      obtain ⟨outcome, after⟩ := result
      cases outcome with
      | broken => cases mem
      | forward | claimed | failed => exact (ih _ mem).trans kept

/-- A host calls the entry points one after another, on threads of its choice and for methods of its
choice, and does what it likes in between. What the replaced routines receive in the course of it is
what they receive in the course of each of these calls. A call that is served by a slot is routed by
thread, filter and callback, and adds itself at most once to what the callback asks for; and
whatever other call is served by a slot, with the same event and from the same side of its owner's
thread, is decided in the same way. -/
theorem calls_routed (host : Response C W α) (process : Process C W) :
    (∀ earlier, host.recording.run Process.enter Process.sift (process.recorded earlier) =
      ((host.run Process.enter Process.sift process).1,
        (host.run Process.enter Process.sift process).2.recorded
          (earlier ++ (host.asks process).flatMap Asked.passings))) ∧
      ∀ call found, .entering call found ∈ host.asks process →
        ∀ slot, process.entrance call = .ok slot →
          Routed slot call found ∧
          ∀ call' slot', process.entrance call' = .ok slot' →
            (call.thread = slot.owner ↔ call'.thread = slot'.owner) →
            call.event slot.layout = call'.event slot'.layout →
              SameDecision slot slot' call call' found := by
  refine ⟨run_recorded host process, fun call found mem slot served => ?_⟩
  have same_entrance := entrance_eq_of_wiring (wiring_of_mem_asks mem)
  dsimp only [Asked.found] at same_entrance
  have served_here : found.entrance call = .ok slot := (same_entrance call).trans served
  refine ⟨routed_of_served served_here, fun call' slot' served' same_side same_event => ?_⟩
  exact sameDecision_of_served served_here ((same_entrance call').trans served') same_side
    same_event

end

/-- A callback that has the size of the compiled code put elsewhere. -/
def redirecting : Callback Unit Rehearsal.World := fun event =>
  .finish (.forward { event with nativeSize := 0x90 })

/-- A host that has the armed method compiled on the owner's thread and on another one. -/
def compilingTwice : Response Unit Rehearsal.World Unit :=
  .compile recompiled fun _ => .compile { recompiled with thread := 2 } fun _ => .finish ()

/-- The first of the two calls is passed on as the callback had it, the second, from another thread,
as it came. -/
theorem calls_routed_twice :
    ∃ first second, compilingTwice.asks ((recompiling 0).withCallback redirecting) =
        [.entering recompiled first, .entering { recompiled with thread := 2 } second] ∧
      first.passingsOf recompiled = [⟨0x5000, { recompiled with nativeSize := 0x90 }⟩] ∧
      second.passingsOf { recompiled with thread := 2 } =
        [⟨0x5000, { recompiled with thread := 2 }⟩] := by
  obtain ⟨-, routed⟩ := calls_routed compilingTwice ((recompiling 0).withCallback redirecting)
  refine ⟨_, _, rfl, ?_, ?_⟩
  · obtain ⟨⟨-, -, wanted⟩, -⟩ := routed recompiled _ List.mem_cons_self _ rfl
    have wants : ((recompiling 0).withCallback redirecting).Wants (recompiled.event .v40) :=
      ⟨⟨_, rfl, by decide, rfl, _, rfl⟩, rfl, by decide⟩
    exact (wanted rfl wants redirecting rfl).2
  · obtain ⟨⟨foreign, -, -⟩, -⟩ := routed { recompiled with thread := 2 } _
      (List.mem_cons_of_mem _ List.mem_cons_self) _ rfl
    exact (foreign (by decide)).2.2

end CilCapture.Compile
