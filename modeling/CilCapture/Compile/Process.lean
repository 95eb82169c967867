import CilCapture.Compile.Filter
import CilCapture.Compile.Routine

/-!
# The process

The compiler calls plain functions without a context, so what they need is published process-wide:
one slot for each of the two entry points, and the filter of the session that published it. A call
that arrives on another thread than the slot's owner goes to the replaced routine as it is. A call
that the filter forwards goes there with the callback's edits; a claimed one reports success, a
failed one an internal error.

Calls nest, since a callback may compile further methods. Each level of nesting that reaches a
callback raises the filter's depth, and no call with `maxDepth` callbacks around it and one more
reaches another, so the number of levels left, `Filter.depth` counted down, bounds the nesting.
-/

namespace CilCapture.Compile

open Engine

/-- What an entry point needs to route a call. -/
structure Slot where
  /-- The thread that the session runs on. -/
  owner : ThreadId
  layout : InfoLayout
  /-- The routine that the redirect replaced. -/
  replaced : Address
  deriving DecidableEq, Repr

/-- The process-wide state: the redirect's, the callback's and the world's. -/
structure Process (C W : Type) where
  filter : Filter C W
  /-- The slot of calls through the compiler's interface. -/
  methodSlot : Option Slot
  /-- The slot of calls to the internal compile routine. -/
  compSlot : Option Slot
  /-- Whether a session owns the redirect. -/
  sessionHeld : Bool
  client : C
  world : W
  /-- What has been reported, in order. -/
  notices : List Notice

def compileOk : Int32 := 0

/-- The compiler's report of an internal error. -/
def compileFailed : Int32 := -2147483645

variable {C W : Type}

namespace Process

def idle (client : C) (world : W) : Process C W where
  filter := .disarmed .passthrough
  methodSlot := none
  compSlot := none
  sessionHeld := false
  client
  world
  notices := []

def onFilter (change : Filter C W → Filter C W) (process : Process C W) : Process C W :=
  { process with filter := change process.filter }

def report (notices : List Notice) (process : Process C W) : Process C W :=
  { process with notices := process.notices ++ notices }

def onWorld {α : Type} (step : EStateM Fault W α) : EStateM Fault (Process C W) α := fun process =>
  match step process.world with
  | .ok value world => .ok value { process with world }
  | .error fault world => .error fault { process with world }

/-- Whether a request is for the armed method; a method that cannot be resolved is not. -/
def isTarget [Introspection W] (request : CompileRequest) (process : Process C W) :
    Bool × Process C W :=
  let filter := process.filter
  if filter.targetMethod = 0 ∨ request.moduleHandle ≠ filter.targetModule then (false, process)
  else
    match filter.resolver.resolve request.methodHandle process.world with
    | .ok resolved (resolver, world) =>
      (resolved == filter.targetMethod,
        { process with filter := { filter with resolver }, world })
    | .error _ (resolver, world) =>
      (false, { process with filter := { filter with resolver }, world })

end Process

/-- Runs what a callback does; `enter` and `sift` handle the calls it makes. It has no value when an
event that it hands to the filter breaks down. -/
def Response.run {α : Type} (enter : CompileCall → Process C W → Int32 × Process C W)
    (sift : CompileEvent → Process C W → FilterOutcome × Process C W) :
    Response C W α → Process C W → Option α × Process C W
  | .finish value, process => (some value, process)
  | .observe next, process => (next process.client process.world).run enter sift process
  | .countDepth next, process => (next process.filter.depth).run enter sift process
  | .store client world next, process => next.run enter sift { process with client, world }
  | .report notice next, process => next.run enter sift (process.report [notice])
  | .arm method next, process =>
    next.run enter sift (process.onFilter fun filter => { filter with targetMethod := method })
  | .compile call next, process =>
    let (result, process) := enter call process
    (next result).run enter sift process
  | .sift event next, process =>
    match sift event process with
    | (.broken, process) => (none, process)
    | (outcome, process) => (next outcome).run enter sift process

/-- The outcome of a verdict; a fault is stashed. -/
def Process.conclude (verdict : Verdict) (process : Process C W) : FilterOutcome × Process C W :=
  match verdict with
  | .claim => (.claimed, process)
  | .forward event => (.forward event, process)
  | .fail cause => (.failed, process.onFilter (.stash cause))
  | .breakdown => (.broken, process)

/-- A broken callback counts as one that failed with a fault at the native boundary. -/
def Process.contain : FilterOutcome × Process C W → FilterOutcome × Process C W
  | (.broken, process) =>
    (.failed, process.onFilter (.stash (.nativeFault "compile callback panicked")))
  | result => result

section

variable [Introspection W] [NativeCode W]

/-- What an entry point returns for a call that arrived at a published slot, where `sift` filters
its event. -/
def Process.route (sift : CompileEvent → Process C W → FilterOutcome × Process C W) (slot : Slot)
    (call : CompileCall) (process : Process C W) : Int32 × Process C W :=
  let passOn (call : CompileCall) (process : Process C W) : Int32 × Process C W :=
    let (result, world) := NativeCode.compile slot.replaced call process.world
    (result, { process with world })
  if call.thread ≠ slot.owner then passOn call process
  else
    match Process.contain (sift (call.event slot.layout) process) with
    | (.forward event, process) => passOn (call.withEvent event) process
    | (.claimed, process) => (compileOk, process)
    | (_, process) => (compileFailed, process)

/-- What the entry point of a call returns, where `sift` filters its event. Without a slot there is
nothing to call; the internal routine does nothing without a compiler object. -/
def Process.enterWith (sift : CompileEvent → Process C W → FilterOutcome × Process C W)
    (call : CompileCall) (process : Process C W) : Int32 × Process C W :=
  let served (slot : Option Slot) : Int32 × Process C W :=
    match slot with
    | none => (compileFailed, process)
    | some slot => process.route sift slot call
  match call.routine with
  | .compileMethod => served process.methodSlot
  | .compCompile _ _ => if call.this = 0 then (compileOk, process) else served process.compSlot

/-- Filters an event with `levels` levels of nesting left. -/
def Process.siftWithin :
    (levels : Nat) → CompileEvent → Process C W → FilterOutcome × Process C W
  | 0, event, process => (.forward event, process)
  | levels + 1, event, process =>
    match event.request? with
    | none => (.forward event, process)
    | some request =>
      if maxDepth < process.filter.depth then (.forward event, process)
      else
        let (isTarget, process) := process.isTarget request
        if !isTarget then (.forward event, process)
        else
          match process.filter.callback with
          | none => (.forward event, process)
          | some callback =>
            let sift := Process.siftWithin levels
            let (verdict, process) :=
              (callback event).run (Process.enterWith sift) sift (process.onFilter .enter)
            (process.onFilter .leave).conclude (verdict.getD .breakdown)

def Process.sift (event : CompileEvent) (process : Process C W) : FilterOutcome × Process C W :=
  process.siftWithin (maxDepth + 1 - process.filter.depth) event

/-- What the entry point of a call returns. -/
def Process.enter (call : CompileCall) (process : Process C W) : Int32 × Process C W :=
  process.enterWith Process.sift call

def Process.perform {ε α : Type} : Errand ε W α → EStateM ε (Process C W) α
  | .done (.ok value), process => .ok value process
  | .done (.error failure), process => .error failure process
  | .observe next, process => Process.perform (next process.world) process
  | .store world next, process => Process.perform next { process with world }
  | .compile call next, process =>
    let (result, process) := process.enter call
    Process.perform (next result) process

end

end CilCapture.Compile
