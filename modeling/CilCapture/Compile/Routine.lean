import CilCapture.Body.Clause
import CilCapture.Compile.Request

/-!
# Errands that may reach the compiler

What the library asks of its surroundings (native code of the engine, a host, a strategy) is work
on the world in the course of which the redirected compiler may be called, since running managed
code compiles it. An `Errand` is such work as a finite program; `Process.perform` carries it out
with the redirect in place. The redirect itself and what stands behind it are out of its reach. A
`Routine` is an errand that fails with a fault.

Native code itself is met only through `NativeCode`: the routines of the engine and its compiler
that the library calls, by address, and the memory that it reads without asking.
-/

namespace CilCapture.Compile

/-- Work on a world of type `W` that comes to a value of type `α` or a failure of type `ε`. -/
inductive Errand (ε W α : Type) where
  | done (result : Except ε α)
  /-- Looks at the world. -/
  | observe (next : W → Errand ε W α)
  /-- Replaces the world. -/
  | store (world : W) (next : Errand ε W α)
  /-- Calls the redirected compiler. -/
  | compile (call : CompileCall) (next : Int32 → Errand ε W α)

/-- An errand that may fail with a fault. -/
abbrev Routine (W α : Type) := Errand Fault W α

namespace Errand

variable {ε V W α β : Type}

/-- One errand after another; a failure of the first ends both. -/
def andThen : Errand ε W α → (α → Errand ε W β) → Errand ε W β
  | done (.ok value), next => next value
  | done (.error failure), _ => done (.error failure)
  | observe rest, next => observe fun world => (rest world).andThen next
  | store world rest, next => store world (rest.andThen next)
  | compile call rest, next => compile call fun result => (rest result).andThen next

instance : Monad (Errand ε W) where
  pure value := done (.ok value)
  bind := andThen

def ofStep (step : EStateM ε W α) : Errand ε W α :=
  observe fun world =>
    match step world with
    | .ok value world => store world (done (.ok value))
    | .error failure world => store world (done (.error failure))

/-- An errand on a part of a world. -/
def within (part : V → W) (replace : W → V → V) : Errand ε W α → Errand ε V α
  | done result => done result
  | observe next => observe fun whole => (next (part whole)).within part replace
  | store world next => observe fun whole => store (replace world whole) (next.within part replace)
  | compile call next => compile call fun result => (next result).within part replace

end Errand

/-- A state in which native routines can be called. -/
class NativeCode (W : Type) where
  /-- The word at an address of an interface object or table. -/
  word (address : Address) (world : W) : Address
  /-- Calls a routine that tells an exception clause of a method. -/
  clauseInfo (function this method : Address) (index : Nat) (world : W) : Body.Clause × W
  /-- Calls a routine of the compiler. -/
  compile (function : Address) (call : CompileCall) (world : W) : Int32 × W
  /-- Calls any other routine. -/
  call (function : Address) (arguments : List Address) : Routine W Address

end CilCapture.Compile
