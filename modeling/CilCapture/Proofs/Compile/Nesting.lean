import Mathlib.Logic.Relation
import CilCapture.Proofs.Compile.Wiring
import CilCapture.Rehearsal.World

/-!
# Callbacks within callbacks

A callback may compile further methods, and so be invoked again before it has ended. The filter is
defined by the levels of nesting that are left; counting the callbacks in progress makes the levels
superfluous (`sift_eq`), so that what the filter does with an event can be said of the process that
it finds (`exists_invokes_iff`, `sift_of_not_wants`).

A run with all that is nested in it is followed from moment to moment (`Leads`). Each step either
goes on with the same callback or into another one (`Leads.run_eq`); the depth counts these and is
the same again behind each call, so it is right at every moment (`Moment.Counted.reached`).

A moment is a callback with what is still to be done of it, and the number of callbacks around it.
One can be inside of a callback, so a statement about all moments that are reached is a statement
about every depth of nesting at once. The proof that the depth is right is an induction over the
steps from moment to moment (`Moment.Counted.leads`).

`Invokes` says that a callback is invoked without looking at how the filter does it: whatever the
callback is, it decides what becomes of the event.
-/

namespace CilCapture.Compile

open Engine

variable {C W α : Type}

namespace Process

/-- What the filter makes of the end of a callback, which breaks down if it comes to no verdict. -/
def outcomeOf (ended : Option Verdict × Process C W) : FilterOutcome × Process C W :=
  (ended.2.onFilter .leave).conclude (ended.1.getD .breakdown)

/-- The process with another callback. -/
def withCallback (callback : Callback C W) (process : Process C W) : Process C W :=
  process.onFilter fun filter => { filter with callback := some callback }

variable [Introspection W] [NativeCode W]

/-- The callback is invoked for an event, and begins in the process `begun`: whatever callback there
is, what it does from there on is what becomes of the event. -/
def Invokes (event : CompileEvent) (process begun : Process C W) : Prop :=
  process.filter.callback.isSome ∧ ∀ callback : Callback C W,
    (process.withCallback callback).sift event =
      outcomeOf ((callback event).run enter sift (begun.withCallback callback))

end Process

/-! ## Filtering without levels -/

section

variable {enter enter' : CompileCall → Process C W → Int32 × Process C W}
variable {sift sift' : CompileEvent → Process C W → FilterOutcome × Process C W}

/-- A response runs the same with calls that are the same at the depth that it runs at. -/
theorem run_congr {depth : Nat}
    (enters : ∀ call process, process.filter.depth = depth →
      enter call process = enter' call process)
    (sifts : ∀ event process, process.filter.depth = depth →
      sift event process = sift' event process)
    (entered : ∀ call process, (enter' call process).2.filter.depth = process.filter.depth)
    (sifted : ∀ event process, (sift' event process).2.filter.depth = process.filter.depth)
    (response : Response C W α) {process : Process C W} (here : process.filter.depth = depth) :
    response.run enter sift process = response.run enter' sift' process := by
  induction response generalizing process with
  | finish value => rfl
  | observe next ih => exact ih _ _ here
  | countDepth next ih => exact ih _ here
  | store client world next ih => exact ih here
  | report notice next ih => exact ih here
  | arm method next ih => exact ih here
  | compile call next ih =>
    rw [Response.run, Response.run, enters call process here]
    exact ih _ ((entered call process).trans here)
  | sift event next ih =>
    have there := (sifted event process).trans here
    rw [Response.run, Response.run, sifts event process here]
    rcases found : sift' event process with ⟨outcome, after⟩
    rw [found] at there
    cases outcome with
    | broken => rfl
    | forward | claimed | failed => exact ih _ there

/-- An entry depends on the filtering of the process that it finds only. -/
theorem enterWith_congr [NativeCode W] {process : Process C W}
    (sifts : ∀ event, sift event process = sift' event process) (call : CompileCall) :
    process.enterWith sift call = process.enterWith sift' call := by
  simp only [enterWith_eq, Process.route, sifts]

variable [Introspection W] [NativeCode W]

/-- A callback runs as if the levels that are left were counted anew for each call. -/
theorem run_siftWithin {levels : Nat} {process : Process C W}
    (left_eq : levels = maxDepth + 1 - process.filter.depth) (response : Response C W α) :
    response.run (Process.enterWith (Process.siftWithin levels)) (Process.siftWithin levels)
        process = response.run Process.enter Process.sift process := by
  have sifts (event : CompileEvent) (other : Process C W)
      (same : other.filter.depth = process.filter.depth) :
      other.siftWithin levels event = other.sift event := by
    rw [Process.sift, same, left_eq]
  refine run_congr (fun call other same => ?_) sifts depth_enter depth_sift response rfl
  exact enterWith_congr (fun event => sifts event other same) call

/-- What the filter does with an event, said without levels. -/
theorem sift_eq (event : CompileEvent) (process : Process C W) :
    process.sift event =
      match event.request? with
      | none => (.forward event, process)
      | some request =>
        if maxDepth < process.filter.depth then (.forward event, process)
        else
          match process.isTarget request with
          | (false, after) => (.forward event, after)
          | (true, after) =>
            match after.filter.callback with
            | none => (.forward event, after)
            | some callback =>
              Process.outcomeOf
                ((callback event).run Process.enter Process.sift (after.onFilter .enter)) := by
  rw [Process.sift]
  rcases Nat.lt_or_ge maxDepth process.filter.depth with deep | shallow
  · rw [Nat.sub_eq_zero_of_le deep]
    cases event.request? with
    | none => rfl
    | some request => exact (if_pos deep).symm
  · obtain ⟨levels, levels_eq⟩ := Nat.exists_eq_add_of_le shallow
    have left_eq : maxDepth + 1 - process.filter.depth = levels + 1 := by omega
    rw [left_eq]
    unfold Process.siftWithin
    cases event.request? with
    | none => rfl
    | some request =>
      dsimp only
      rw [if_neg (Nat.not_lt.mpr shallow), if_neg (Nat.not_lt.mpr shallow)]
      have asked : (process.isTarget request).2.filter.depth = process.filter.depth :=
        leaves_isTarget steady_depth request process
      rcases answered : process.isTarget request with ⟨isTarget, after⟩
      rw [answered] at asked
      dsimp only at asked
      cases isTarget with
      | false => rfl
      | true =>
        simp only [Bool.not_true]
        cases after.filter.callback with
        | none => rfl
        | some callback =>
          refine congrArg Process.outcomeOf (run_siftWithin ?_ (callback event))
          change levels = maxDepth + 1 - (after.filter.depth + 1)
          omega

end

/-! ## When the callback is invoked -/

section

variable [Introspection W]

/-- When an event is one for the callback: its block is of the armed method, as the resolver knows
it, and of the target module, there is a callback, and not too many are in progress. -/
def Process.Wants (event : CompileEvent) (process : Process C W) : Prop :=
  (∃ info, event.info = some info ∧ process.filter.targetMethod ≠ 0 ∧
    info.moduleHandle = process.filter.targetModule ∧
    ∃ after, process.filter.resolver.resolve info.methodHandle process.world =
      .ok process.filter.targetMethod after) ∧
    process.filter.callback.isSome ∧ process.filter.depth ≤ maxDepth

/-- Which callback there is makes no difference to whether it is invoked. -/
theorem wants_withCallback {event : CompileEvent} {process : Process C W}
    (present : process.filter.callback.isSome) (callback : Callback C W) :
    (process.withCallback callback).Wants event ↔ process.Wants event := by
  constructor
  · rintro ⟨known, -, shallow⟩
    exact ⟨known, present, shallow⟩
  · rintro ⟨known, -, shallow⟩
    exact ⟨known, rfl, shallow⟩

/-- A request is for the armed method just when one is armed, the modules agree and the resolver
leads from the one method to the other. -/
theorem isTarget_fst_iff {request : CompileRequest} {process : Process C W} :
    (process.isTarget request).1 = true ↔ process.filter.targetMethod ≠ 0 ∧
      request.moduleHandle = process.filter.targetModule ∧
      ∃ after, process.filter.resolver.resolve request.methodHandle process.world =
        .ok process.filter.targetMethod after := by
  unfold Process.isTarget
  dsimp only
  split
  next foreign =>
    constructor
    · intro never
      cases never
    · rintro ⟨armed, same_module, -⟩
      exact absurd foreign (not_or.mpr ⟨armed, not_not.mpr same_module⟩)
  next own =>
    obtain ⟨armed, same_module⟩ := not_or.mp own
    cases process.filter.resolver.resolve request.methodHandle process.world with
    | ok resolved after =>
      constructor
      · intro same
        rw [beq_iff_eq.mp same]
        exact ⟨armed, not_not.mp same_module, _, rfl⟩
      · rintro ⟨-, -, _, same⟩
        cases same
        exact beq_self_eq_true _
    | error fault after =>
      constructor
      · intro never
        cases never
      · rintro ⟨-, -, _, never⟩
        cases never

/-- The process after the filter looked at an event. -/
def Process.asked (event : CompileEvent) (process : Process C W) : Process C W :=
  match event.request? with
  | none => process
  | some request =>
    if maxDepth < process.filter.depth then process else (process.isTarget request).2

/-- Looking for the target is no matter of the callback. -/
theorem isTarget_withCallback (request : CompileRequest) (process : Process C W)
    (callback : Callback C W) :
    (process.withCallback callback).isTarget request =
      ((process.isTarget request).1, (process.isTarget request).2.withCallback callback) := by
  unfold Process.isTarget
  dsimp only [Process.withCallback, Process.onFilter]
  split
  next => rfl
  next => cases process.filter.resolver.resolve request.methodHandle process.world <;> rfl

/-- What the filter asks before it invokes a callback is no matter of the callback. -/
theorem asked_withCallback (event : CompileEvent) (process : Process C W)
    (callback : Callback C W) :
    (process.withCallback callback).asked event = (process.asked event).withCallback callback := by
  have same_depth : (process.withCallback callback).filter.depth = process.filter.depth := rfl
  unfold Process.asked
  cases event.request? with
  | none => rfl
  | some request =>
    dsimp only
    rw [same_depth, isTarget_withCallback]
    split <;> rfl

/-- Asking counts no callback as begun. -/
theorem depth_asked (event : CompileEvent) (process : Process C W) :
    (process.asked event).filter.depth = process.filter.depth := by
  unfold Process.asked
  split
  next => rfl
  next request _ =>
    split
    next => rfl
    next => exact leaves_isTarget steady_depth request process

variable [NativeCode W]

/-- An event that is wanted becomes what the callback makes of it, from a process where it is
counted in. -/
theorem sift_of_wants {event : CompileEvent} {process : Process C W} {callback : Callback C W}
    (wants : process.Wants event) (present : process.filter.callback = some callback) :
    process.sift event = Process.outcomeOf ((callback event).run Process.enter Process.sift
      ((process.asked event).onFilter .enter)) := by
  obtain ⟨⟨info, info_eq, known⟩, -, shallow⟩ := wants
  have request_eq : event.request? = some (.ofInfo event.layout info) := congrArg _ info_eq
  have isTarget : (process.isTarget (.ofInfo event.layout info)).1 = true :=
    isTarget_fst_iff.mpr known
  have kept := congrArg Wiring.callback (wiring_isTarget (.ofInfo event.layout info) process)
  rw [sift_eq, Process.asked, request_eq]
  dsimp only
  rw [if_neg (Nat.not_lt.mpr shallow), if_neg (Nat.not_lt.mpr shallow)]
  rcases answered : process.isTarget (.ofInfo event.layout info) with ⟨_, after⟩
  rw [answered] at isTarget kept
  cases isTarget
  have present' : after.filter.callback = some callback := kept.trans present
  simp only [present']

/-- Any other event is forwarded as it is. Only what the resolver remembers and the world may have
changed. -/
theorem sift_of_not_wants {event : CompileEvent} {process : Process C W}
    (unwanted : ¬ process.Wants event) :
    process.sift event = (.forward event, process.asked event) := by
  rw [sift_eq, Process.asked]
  cases request_eq : event.request? with
  | none => rfl
  | some request =>
    dsimp only
    split
    next => rfl
    next shallow =>
      have kept := congrArg Wiring.callback (wiring_isTarget request process)
      rcases answered : process.isTarget request with ⟨isTarget, after⟩
      rw [answered] at kept
      cases isTarget with
      | false => rfl
      | true =>
        cases present : after.filter.callback with
        | none => simp only [present]
        | some callback =>
          obtain ⟨info, info_eq, rfl⟩ := Option.map_eq_some_iff.mp request_eq
          refine absurd ⟨⟨info, info_eq, ?_⟩, ?_, Nat.le_of_not_lt shallow⟩ unwanted
          · exact isTarget_fst_iff.mp (congrArg Prod.fst answered)
          · exact Option.isSome_iff_exists.mpr ⟨callback, kept.symm.trans present⟩

/-- Where an event is wanted, the callback begins right behind the asking. -/
theorem invokes_asked {event : CompileEvent} {process : Process C W}
    (wants : process.Wants event) :
    process.Invokes event ((process.asked event).onFilter .enter) := by
  have present := wants.2.1
  refine ⟨present, fun callback => ?_⟩
  rw [sift_of_wants ((wants_withCallback present callback).mpr wants) rfl, asked_withCallback]
  rfl

/-- Only wanted events invoke the callback: another one would be forwarded whatever the callback is,
and two callbacks that end differently show that this is not what becomes of it. -/
theorem Process.Invokes.wants {event : CompileEvent} {process begun : Process C W}
    (invokes : process.Invokes event begun) : process.Wants event := by
  obtain ⟨present, same⟩ := invokes
  by_contra unwanted
  -- An event that is not wanted is forwarded even if the callback would claim the call.
  have claimed := same fun _ => .finish .claim
  rw [sift_of_not_wants (mt (wants_withCallback present _).mp unwanted)] at claimed
  cases congrArg Prod.fst claimed

/-- The callback is invoked just for the events that are wanted. -/
theorem exists_invokes_iff {event : CompileEvent} {process : Process C W} :
    (∃ begun, process.Invokes event begun) ↔ process.Wants event :=
  ⟨fun ⟨_, invokes⟩ => invokes.wants, fun wants => ⟨_, invokes_asked wants⟩⟩

/-- One callback more is in progress inside the callback. -/
theorem Process.Invokes.depth_eq {event : CompileEvent} {process begun : Process C W}
    (invokes : process.Invokes event begun) :
    begun.filter.depth = process.filter.depth + 1 := by
  -- A callback that lets the depth that it sees be seen.
  let telling : Callback C W := fun event =>
    .countDepth fun depth => .finish (.forward { event with nativeEntry := depth })
  have seen := (invokes.2 telling).symm.trans ((invokes_asked invokes.wants).2 telling)
  have told := FilterOutcome.forward.inj (congrArg Prod.fst seen)
  exact (congrArg CompileEvent.nativeEntry told).trans
    (congrArg (· + 1) (depth_asked event process))

/-! ## The moments of a run -/

/-- A moment in the run of a callback, or of what calls the compiler while none is in progress. -/
structure Moment (C W : Type) where
  /-- Callbacks in progress. -/
  running : Nat
  /-- What is still to be done at the innermost of them. -/
  rest : Response C W Verdict
  process : Process C W

/-- The event that is handed to the filter next, if a call arrives at a published slot on the
owner's thread, or an event is handed over directly. -/
def Moment.handed? (now : Moment C W) : Option CompileEvent :=
  match now.rest with
  | .compile call _ =>
    match now.process.entrance call with
    | .ok slot => if call.thread = slot.owner then some (call.event slot.layout) else none
    | .error _ => none
  | .sift event _ => some event
  | _ => none

/-- One moment leads to the next: to where the response stands after its first step, with the whole
of a call behind it, and for a call that invokes the callback also to the callback's beginning. -/
inductive Leads : Moment C W → Moment C W → Prop where
  | observe {running next process} : Leads ⟨running, .observe next, process⟩
    ⟨running, next process.client process.world, process⟩
  | countDepth {running next process} : Leads ⟨running, .countDepth next, process⟩
    ⟨running, next process.filter.depth, process⟩
  | store {running client world next process} : Leads ⟨running, .store client world next, process⟩
    ⟨running, next, { process with client, world }⟩
  | report {running notice next process} : Leads ⟨running, .report notice next, process⟩
    ⟨running, next, process.report [notice]⟩
  | arm {running method next process} : Leads ⟨running, .arm method next, process⟩
    ⟨running, next, process.onFilter fun filter => { filter with targetMethod := method }⟩
  | compile {running call next process} : Leads ⟨running, .compile call next, process⟩
    ⟨running, next (process.enter call).1, (process.enter call).2⟩
  | sift {running event next process outcome after}
    (sifted : process.sift event = (outcome, after)) (unbroken : outcome ≠ .broken) :
    Leads ⟨running, .sift event next, process⟩ ⟨running, next outcome, after⟩
  | into {now : Moment C W} {event callback begun} (handed : now.handed? = some event)
    (present : now.process.filter.callback = some callback)
    (invokes : now.process.Invokes event begun) :
    Leads now ⟨now.running + 1, callback event, begun.withCallback callback⟩

/-- A moment leads to one at which the rest of the callback comes to the same, or into a callback
that decides what becomes of the event that is handed over. -/
theorem Leads.run_eq {now later : Moment C W} (leads : Leads now later) :
    later.running = now.running ∧
        later.rest.run Process.enter Process.sift later.process =
          now.rest.run Process.enter Process.sift now.process ∨
      later.running = now.running + 1 ∧ ∃ event, now.handed? = some event ∧
        now.process.sift event =
          Process.outcomeOf (later.rest.run Process.enter Process.sift later.process) := by
  cases leads with
  | observe | countDepth | store | report | arm | compile => exact .inl ⟨rfl, rfl⟩
  | @sift _ event next process outcome after sifted unbroken =>
    refine .inl ⟨rfl, ?_⟩
    dsimp only
    rw [Response.run, sifted]
    cases outcome with
    | broken => exact absurd rfl unbroken
    | forward | claimed | failed => rfl
  | @into _ event callback begun handed present invokes =>
    have same : now.process.withCallback callback = now.process := by
      rw [Process.withCallback, Process.onFilter, ← present]
    have decided := invokes.2 callback
    rw [same] at decided
    exact .inr ⟨rfl, event, handed, decided⟩

/-- What the depth says of a moment. -/
structure Moment.Counted (now : Moment C W) : Prop where
  depth_eq : now.process.filter.depth = now.running
  bounded : now.running ≤ maxDepth + 1

/-- No step loses count. -/
theorem Moment.Counted.leads {now later : Moment C W} (counted : now.Counted)
    (leads : Leads now later) : later.Counted := by
  obtain ⟨depth_eq, bounded⟩ := counted
  cases leads with
  | observe | countDepth | store | report | arm => exact ⟨depth_eq, bounded⟩
  | @compile _ call _ process => exact ⟨(depth_enter call process).trans depth_eq, bounded⟩
  | @sift _ event _ process _ _ sifted =>
    have kept := depth_sift event process
    rw [sifted] at kept
    exact ⟨kept.trans depth_eq, bounded⟩
  | into handed present invokes =>
    have shallow := invokes.wants.2.2
    have deeper := invokes.depth_eq
    refine ⟨deeper.trans (congrArg (· + 1) depth_eq), ?_⟩
    dsimp only
    omega

/-- The depth is right at every moment that a start with the right depth leads to. -/
theorem Moment.Counted.reached {start now : Moment C W} (counted : start.Counted)
    (reached : Relation.ReflTransGen Leads start now) : now.Counted := by
  induction reached with
  | refl => exact counted
  | tail _ leads ih => exact ih.leads leads

/-- A call whose event the filter forwards goes to the routine that the redirect replaced as it
is. -/
theorem enter_of_forward {call : CompileCall} {slot : Slot} {process after : Process C W}
    (served : process.entrance call = .ok slot) (own : call.thread = slot.owner)
    (forwarded : process.sift (call.event slot.layout) =
      (.forward (call.event slot.layout), after)) :
    process.enter call = ((NativeCode.compile slot.replaced call after.world).1,
      { after with world := (NativeCode.compile slot.replaced call after.world).2 }) := by
  rw [Process.enter, enterWith_eq, served]
  dsimp only
  rw [Process.route, if_neg (not_not.mpr own), forwarded]
  rfl

/-- From a start with no callback in progress, whatever callbacks and what they call do, at every
moment: as many callbacks are in progress as the depth says, and at most 21. The callback is invoked
for an event exactly when the event has a block of the target module whose method the resolver takes
for the armed one, there is a callback, and at most 20 callbacks are in progress; every other event
is forwarded unchanged, and a call that it came with reaches the replaced routine as it is. No call
changes the depth. -/
theorem interception_atAnyDepth {start now : Moment C W} (idle : start.running = 0)
    (fresh : start.process.filter.depth = 0) (reached : Relation.ReflTransGen Leads start now) :
    (now.process.filter.depth = now.running ∧ now.running ≤ 21) ∧
      (∀ event,
        ((∃ begun, now.process.Invokes event begun) ↔
          (∃ info, event.info = some info ∧ now.process.filter.targetMethod ≠ 0 ∧
            info.moduleHandle = now.process.filter.targetModule ∧
            ∃ after, now.process.filter.resolver.resolve info.methodHandle now.process.world =
              .ok now.process.filter.targetMethod after) ∧
          now.process.filter.callback.isSome ∧ now.running ≤ 20) ∧
        ((¬ ∃ begun, now.process.Invokes event begun) →
          ∃ after, now.process.sift event = (.forward event, after)) ∧
        (now.process.sift event).2.filter.depth = now.process.filter.depth) ∧
      ∀ call, (now.process.enter call).2.filter.depth = now.process.filter.depth ∧
        ∀ slot, now.process.entrance call = .ok slot → call.thread = slot.owner →
          (¬ ∃ begun, now.process.Invokes (call.event slot.layout) begun) → ∃ after,
            now.process.sift (call.event slot.layout) = (.forward (call.event slot.layout), after) ∧
            now.process.enter call = ((NativeCode.compile slot.replaced call after.world).1,
              { after with world := (NativeCode.compile slot.replaced call after.world).2 }) := by
  have counted : start.Counted := ⟨fresh.trans idle.symm, by rw [idle]; exact Nat.zero_le _⟩
  obtain ⟨depth_eq, bounded⟩ := counted.reached reached
  refine ⟨⟨depth_eq, bounded⟩, fun event => ⟨?_, fun uninvoked => ?_, depth_sift _ _⟩,
    fun call => ⟨depth_enter _ _, fun slot served own uninvoked => ?_⟩⟩
  · rw [exists_invokes_iff, Process.Wants, depth_eq]
    rfl
  · exact ⟨_, sift_of_not_wants (mt exists_invokes_iff.mpr uninvoked)⟩
  · have forwarded := sift_of_not_wants (mt exists_invokes_iff.mpr uninvoked)
    exact ⟨_, forwarded, enter_of_forward served own forwarded⟩

end

/-! ## A callback that has its own method compiled -/

/-- A call that has the method compiled that `recompiling` is armed for. -/
def recompiled : CompileCall where
  routine := .compileMethod
  thread := 1
  this := 0x60
  jitInfo := 0x70
  info := some {
    methodHandle := 0x30
    moduleHandle := 0x10
    code := none
    codeSize := 0
    maxStack := 8
    clauseCount := 0
    options := 0
    localsCount := 0
    locals := none }
  flags := 0
  nativeEntry := 0
  nativeSize := 0

def recompile : Response Unit Rehearsal.World Verdict :=
  .compile recompiled fun _ => .finish .claim

/-- A process with a number of callbacks in progress, each of which has the armed method compiled
again. -/
def recompiling (running : Nat) : Process Unit Rehearsal.World :=
  { Process.idle () (.ofMemory ⟨⟨[]⟩, [], []⟩) with
    filter := {
      resolver := .passthrough
      targetModule := 0x10
      targetMethod := 0x30
      callback := some fun _ => recompile
      depth := running
      stashed := none }
    methodSlot := some { owner := 1, layout := .v40, replaced := 0x5000 } }

/-- A callback that has its own method compiled again gets as deep as it is let. -/
theorem reached_recompiling {running : Nat} (few : running ≤ 21) :
    Relation.ReflTransGen Leads ⟨0, recompile, recompiling 0⟩
      ⟨running, recompile, recompiling running⟩ := by
  induction running with
  | zero => exact .refl
  | succ running ih =>
    have armed : (recompiling running).filter.targetMethod ≠ 0 := Nat.succ_ne_zero _
    have wants : (recompiling running).Wants (recompiled.event .v40) :=
      ⟨⟨_, rfl, armed, rfl, _, rfl⟩, rfl, Nat.le_of_lt_succ few⟩
    have asked_eq : (recompiling running).asked (recompiled.event .v40) = recompiling running := by
      unfold Process.asked
      dsimp only [CompileEvent.request?, recompiled, CompileCall.event, Option.map_some]
      split <;> rfl
    have begins := invokes_asked wants
    rw [asked_eq] at begins
    have leads : Leads ⟨running, recompile, recompiling running⟩
        ⟨running + 1, recompile, recompiling (running + 1)⟩ :=
      @Leads.into _ _ _ _ ⟨running, recompile, recompiling running⟩ (recompiled.event .v40)
        (fun _ => recompile) _ rfl rfl begins
    exact (ih (Nat.le_of_succ_le few)).tail leads

/-- With twenty callbacks around it the call is still intercepted, with twenty-one it is forwarded.
-/
theorem interception_atAnyDepth_recompiling :
    (∃ now : Moment Unit Rehearsal.World,
      Relation.ReflTransGen Leads ⟨0, recompile, recompiling 0⟩ now ∧ now.running = 20 ∧
      ∃ event begun, now.handed? = some event ∧ now.process.Invokes event begun) ∧
    ∃ now : Moment Unit Rehearsal.World,
      Relation.ReflTransGen Leads ⟨0, recompile, recompiling 0⟩ now ∧ now.running = 21 ∧
      now.process.filter.depth = 21 ∧ ∃ event after, now.handed? = some event ∧
        now.process.sift event = (.forward event, after) := by
  have reached₂₀ := reached_recompiling (show 20 ≤ 21 by decide)
  have reached₂₁ := reached_recompiling (show 21 ≤ 21 by decide)
  obtain ⟨-, each, -⟩ := interception_atAnyDepth rfl rfl reached₂₀
  obtain ⟨invoked, -⟩ := each (recompiled.event .v40)
  obtain ⟨⟨depth_eq, -⟩, each', -⟩ := interception_atAnyDepth rfl rfl reached₂₁
  obtain ⟨invoked', forwarded, -⟩ := each' (recompiled.event .v40)
  obtain ⟨begun, invokes⟩ := invoked.mpr ⟨⟨_, rfl, by decide, rfl, _, rfl⟩, rfl, by decide⟩
  have uninvoked := mt invoked'.mp fun ⟨_, _, shallow⟩ => absurd shallow (by decide)
  obtain ⟨after, forwarded⟩ := forwarded uninvoked
  exact ⟨⟨_, reached₂₀, rfl, _, begun, rfl, invokes⟩,
    _, reached₂₁, rfl, depth_eq, _, after, rfl, forwarded⟩

end CilCapture.Compile
