import CilCapture.Compile.Request
import CilCapture.Engine.Identity
import CilCapture.Notice

/-!
# The filter of compile calls

The filter decides which calls reach the callback: those for the armed method of the target module.
A callback is a finite program (`Response`) that ends with a verdict: it looks at and changes the
state it works on, arms the filter and compiles further methods.
-/

namespace CilCapture.Compile

open Engine

inductive Verdict where
  /-- The method is dealt with; the compiler is not called. -/
  | claim
  /-- The compiler is called with this event. -/
  | forward (event : CompileEvent)
  | fail (cause : Fault)
  /-- The callback broke down instead of returning. -/
  | breakdown
  deriving DecidableEq, Repr

inductive FilterOutcome where
  | forward (event : CompileEvent)
  | claimed
  /-- The callback failed; the fault is stashed in the filter. -/
  | failed
  /-- The callback broke down. -/
  | broken
  deriving DecidableEq, Repr

/-- What a callback does on the way to a value of type `α`: its own state is of type `C`, the world
it shares of type `W`. -/
inductive Response (C W α : Type) where
  | finish (value : α)
  /-- Looks at the state. -/
  | observe (next : C → W → Response C W α)
  /-- Looks at the number of callbacks in progress, this one among them. -/
  | countDepth (next : Nat → Response C W α)
  /-- Replaces the state. -/
  | store (client : C) (world : W) (next : Response C W α)
  | report (notice : Notice) (next : Response C W α)
  /-- Arms the filter. -/
  | arm (method : Handle) (next : Response C W α)
  /-- Calls the redirected compiler. -/
  | compile (call : CompileCall) (next : Int32 → Response C W α)
  /-- Hands an event to the filter directly. -/
  | sift (event : CompileEvent) (next : FilterOutcome → Response C W α)

namespace Response

variable {C W α β : Type}

def andThen : Response C W α → (α → Response C W β) → Response C W β
  | finish value, next => next value
  | observe rest, next => observe fun client world => (rest client world).andThen next
  | countDepth rest, next => countDepth fun depth => (rest depth).andThen next
  | store client world rest, next => store client world (rest.andThen next)
  | report notice rest, next => report notice (rest.andThen next)
  | arm method rest, next => arm method (rest.andThen next)
  | compile call rest, next => compile call fun result => (rest result).andThen next
  | sift event rest, next => sift event fun outcome => (rest outcome).andThen next

instance : Monad (Response C W) where
  pure := finish
  bind := andThen

end Response

abbrev Callback (C W : Type) := CompileEvent → Response C W Verdict

structure Filter (C W : Type) where
  resolver : Resolver
  /-- The module that calls must belong to. -/
  targetModule : Handle
  /-- The armed method, null if none is. -/
  targetMethod : Handle
  callback : Option (Callback C W)
  /-- Callbacks in progress. -/
  depth : Nat
  /-- The fault of the last callback that failed. -/
  stashed : Option Fault

/-- Callbacks that may enclose an intercepted call. -/
def maxDepth : Nat := 20

namespace Filter

variable {C W : Type}

def disarmed (resolver : Resolver) : Filter C W where
  resolver
  targetModule := 0
  targetMethod := 0
  callback := none
  depth := 0
  stashed := none

def enter (filter : Filter C W) : Filter C W := { filter with depth := filter.depth + 1 }

def leave (filter : Filter C W) : Filter C W := { filter with depth := filter.depth - 1 }

def stash (fault : Fault) (filter : Filter C W) : Filter C W :=
  { filter with stashed := some fault }

end Filter

end CilCapture.Compile
