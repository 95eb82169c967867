import CilCapture.Proofs.Compile.Entry
import CilCapture.Proofs.Outcome

/-!
# What no call can change

How a process is wired, that is its slots, the module that calls must belong to and the callback, is
decided by a session. Calls, callbacks and errands work on what is behind it and cannot change it
(`leaves_enter`, `look_perform`). The number of callbacks in progress changes while a callback
runs, but is the same again when it has ended, in whichever way (`depth_sift`, `depth_enter`). Both
are `Steady`, which is all that the proofs look at.

`Steady` is a condition on a way of looking at a process and not on the steps: it says of what is
looked at that callbacks do not work on it, and that it is the same again after a callback if it was
the same at its end as at its beginning. One induction over responses and levels then serves for the
wiring and for the depth.
-/

namespace CilCapture.Compile

open Engine

variable {C W α β : Type}

/-! ## Steady views -/

/-- Something seen of a process that calls and callbacks do not change for good. -/
structure Steady (look : Process C W → β) : Prop where
  /-- It is none of what calls and callbacks work on: the state, the world, the notices and, of the
  filter, the resolver, the armed method and the stash. -/
  worked : ∀ (process : Process C W) (client : C) (world : W) notices resolver targetMethod stashed,
    look { process with
      client, world, notices,
      filter := { process.filter with resolver, targetMethod, stashed } } = look process
  /-- What is seen at the end of a callback as at its beginning is seen after it as before it. -/
  around : ∀ before after : Process C W, look after = look (before.onFilter .enter) →
    look (after.onFilter .leave) = look before

/-- A step after which the same is seen as before. -/
def Leaves (look : Process C W → β) (step : Process C W → α × Process C W) : Prop :=
  ∀ process, look (step process).2 = look process

section

variable {look : Process C W → β}

/-- A response leaves as seen what its calls leave so; its own steps only change what callbacks work
on. -/
theorem leaves_run (steady : Steady look)
    {enter : CompileCall → Process C W → Int32 × Process C W}
    {sift : CompileEvent → Process C W → FilterOutcome × Process C W}
    (enters : ∀ call, Leaves look (enter call)) (sifts : ∀ event, Leaves look (sift event))
    (response : Response C W α) : Leaves look (response.run enter sift) := by
  intro process
  induction response generalizing process with
  | finish value => rfl
  | observe next ih => exact ih _ _ process
  | countDepth next ih => exact ih _ process
  | store client world next ih => exact (ih _).trans (steady.worked process client world _ _ _ _)
  | report notice next ih => exact (ih _).trans (steady.worked process _ _ _ _ _ _)
  | arm method next ih => exact (ih _).trans (steady.worked process _ _ _ _ method _)
  | compile call next ih => exact (ih _ _).trans (enters call process)
  | sift event next ih =>
    have kept := sifts event process
    rw [Response.run]
    split <;> rename_i sifted <;> rw [sifted] at kept
    · exact kept
    · exact (ih _ _).trans kept

/-- What the filter stashes is not seen. -/
theorem look_conclude (steady : Steady look) (verdict : Verdict) (process : Process C W) :
    look (Process.conclude verdict process).2 = look process := by
  cases verdict with
  | fail cause => exact steady.worked process _ _ _ _ _ (some cause)
  | claim | forward | breakdown => rfl

/-- What the entry stashes is not seen. -/
theorem look_contain (steady : Steady look) (result : FilterOutcome × Process C W) :
    look (Process.contain result).2 = look result.2 := by
  obtain ⟨outcome, process⟩ := result
  cases outcome with
  | broken => exact steady.worked process _ _ _ _ _ (some _)
  | forward | claimed | failed => rfl

/-- What the resolver learns is not seen. -/
theorem leaves_isTarget [Introspection W] (steady : Steady look) (request : CompileRequest) :
    Leaves look (Process.isTarget request) := by
  intro process
  unfold Process.isTarget
  dsimp only
  split
  next => rfl
  next => split <;> exact steady.worked process _ _ _ _ _ _

variable [NativeCode W]

/-- A call that is routed leaves things as seen, if filtering does. -/
theorem leaves_route (steady : Steady look)
    {sift : CompileEvent → Process C W → FilterOutcome × Process C W}
    (sifts : ∀ event, Leaves look (sift event)) (slot : Slot) (call : CompileCall) :
    Leaves look (Process.route sift slot call) := by
  intro process
  have kept := (look_contain steady (sift (call.event slot.layout) process)).trans
    (sifts (call.event slot.layout) process)
  unfold Process.route
  dsimp only
  split
  next => exact steady.worked process _ _ _ _ _ _
  next =>
    split <;> rename_i contained <;> rw [contained] at kept
    · exact (steady.worked _ _ _ _ _ _ _).trans kept
    · exact kept
    · exact kept

/-- An entry refuses a call, which changes nothing, or routes it. -/
theorem leaves_enterWith (steady : Steady look)
    {sift : CompileEvent → Process C W → FilterOutcome × Process C W}
    (sifts : ∀ event, Leaves look (sift event)) (call : CompileCall) :
    Leaves look (Process.enterWith sift call) := by
  intro process
  rw [enterWith_eq]
  cases process.entrance call with
  | error result => rfl
  | ok slot => exact leaves_route steady sifts slot call process

variable [Introspection W]

/-- Filtering leaves what is steady as it is, whatever the callback does, at any depth of
nesting. -/
theorem leaves_siftWithin (steady : Steady look) (levels : Nat) (event : CompileEvent) :
    Leaves look (Process.siftWithin levels event) := by
  intro process
  induction levels generalizing event process with
  | zero => rfl
  | succ levels ih =>
    unfold Process.siftWithin
    cases event.request? with
    | none => rfl
    | some request =>
      dsimp only
      split
      next => rfl
      next =>
        have asked := leaves_isTarget steady request process
        rcases answered : process.isTarget request with ⟨isTarget, after⟩
        rw [answered] at asked
        cases isTarget with
        | false => exact asked
        | true =>
          simp only [Bool.not_true]
          cases after.filter.callback with
          | none => exact asked
          | some callback =>
            have ran := leaves_run steady (leaves_enterWith steady ih) ih (callback event)
              (after.onFilter .enter)
            exact (look_conclude steady _ _).trans ((steady.around after _ ran).trans asked)

/-- After filtering a process looks as before. -/
theorem leaves_sift (steady : Steady look) (event : CompileEvent) :
    Leaves look (Process.sift event) :=
  fun process => leaves_siftWithin steady (maxDepth + 1 - process.filter.depth) event process

/-- After a call a process looks as before. -/
theorem leaves_enter (steady : Steady look) (call : CompileCall) :
    Leaves look (Process.enter call) :=
  leaves_enterWith steady (leaves_sift steady) call

/-- Neither an errand nor the callbacks that it causes to run change what is steady. -/
theorem look_perform {ε : Type} (steady : Steady look) (errand : Errand ε W α)
    (process : Process C W) :
    look (finalState (Process.perform errand process)) = look process := by
  induction errand generalizing process with
  | done result => cases result <;> rfl
  | observe next ih => exact ih _ process
  | store world next ih =>
    exact (ih { process with world }).trans (steady.worked process _ world _ _ _ _)
  | compile call next ih => exact (ih _ _).trans (leaves_enter steady call process)

end

/-! ## Wiring -/

/-- What a session decides about a process. -/
structure Wiring (C W : Type) where
  targetModule : Handle
  callback : Option (Callback C W)
  methodSlot : Option Slot
  compSlot : Option Slot
  sessionHeld : Bool

namespace Process

def wiring (process : Process C W) : Wiring C W where
  targetModule := process.filter.targetModule
  callback := process.filter.callback
  methodSlot := process.methodSlot
  compSlot := process.compSlot
  sessionHeld := process.sessionHeld

end Process

/-- A step that leaves a process wired as it is. -/
def KeepsWiring (step : Process C W → α × Process C W) : Prop :=
  ∀ process, (step process).2.wiring = process.wiring

/-- No call changes the wiring. -/
theorem steady_wiring : Steady (Process.wiring (C := C) (W := W)) where
  worked _ _ _ _ _ _ _ := rfl
  around _ _ same := same

/-- Looking for the target changes no wiring. -/
theorem wiring_isTarget [Introspection W] (request : CompileRequest) :
    KeepsWiring (C := C) (W := W) (Process.isTarget request) :=
  leaves_isTarget steady_wiring request

section

variable [NativeCode W] [Introspection W]

/-- A call leaves the process wired as it is, whatever its callbacks do. -/
theorem wiring_enter (call : CompileCall) : KeepsWiring (C := C) (W := W) (Process.enter call) :=
  leaves_enter steady_wiring call

end

/-! ## Depth -/

/-- The depth changes in callbacks, but each brings it back. -/
theorem steady_depth : Steady fun process : Process C W => process.filter.depth where
  worked _ _ _ _ _ _ _ := rfl
  around _ _ same := congrArg (· - 1) same

section

variable [NativeCode W] [Introspection W]

/-- However a callback ends, as many are in progress after it as before it. -/
theorem depth_sift (event : CompileEvent) (process : Process C W) :
    (process.sift event).2.filter.depth = process.filter.depth :=
  leaves_sift steady_depth event process

/-- As many callbacks are in progress after a call as before it. -/
theorem depth_enter (call : CompileCall) (process : Process C W) :
    (process.enter call).2.filter.depth = process.filter.depth :=
  leaves_enter steady_depth call process

end

end CilCapture.Compile
