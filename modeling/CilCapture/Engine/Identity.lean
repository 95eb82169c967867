import CilCapture.Engine.Environment

/-!
# Canonical methods

The handle that reaches the compiler is not always the handle a session armed: members of value
types are compiled through a wrapper. A `Resolver` maps a handle to the handle that owns the code;
it asks the engine, which may fail, and may remember the answers.
-/

namespace CilCapture.Engine

structure MethodIdentity where
  moduleHandle : Handle
  methodHandle : Handle
  deriving DecidableEq, Repr

def MethodIdentity.text (identity : MethodIdentity) : String :=
  "0x" ++ hex 0 identity.moduleHandle ++ "!0x" ++ hex 0 identity.methodHandle

/-- A state in which the engine answers questions about methods. -/
class Introspection (W : Type) where
  /-- Whether the method belongs to a value type. -/
  isValueTypeMember (method : Handle) : EStateM Fault W Bool
  /-- The stub that a 4.x engine compiles in place of the method, or the method itself. -/
  instantiatingStub (method : Handle) : EStateM Fault W Handle
  /-- The unboxing stub that a 2.x engine compiles for the method. -/
  unboxingStub (method : Handle) : EStateM Fault W Handle

inductive Resolver where
  /-- Every handle is its own. -/
  | passthrough
  /-- Members of value types have an instantiating stub. -/
  | instantiating
  /-- Members of value types have an unboxing stub. -/
  | unboxing
  /-- As another resolver, whose answers are kept; failures are not. -/
  | caching (inner : Resolver) (known : List (Handle × Handle))
  deriving DecidableEq, Repr, Inhabited

namespace Resolver

variable {W : Type} [Introspection W]

/-- Members of value types are what the given stub is; the null handle and other members are their
own. -/
def ofValueTypes (stub : Handle → EStateM Fault W Handle) (method : Handle) :
    EStateM Fault W Handle := do
  if method = 0 then return method
  if ← Introspection.isValueTypeMember method then stub method else return method

/-- The handle that owns the code of a method, and the resolver after the answer. -/
def resolve : Resolver → Handle → W → EStateM.Result Fault (Resolver × W) Handle
  | passthrough, method, world => .ok method (passthrough, world)
  | instantiating, method, world =>
    match ofValueTypes Introspection.instantiatingStub method world with
    | .ok resolved world => .ok resolved (instantiating, world)
    | .error fault world => .error fault (instantiating, world)
  | unboxing, method, world =>
    match ofValueTypes Introspection.unboxingStub method world with
    | .ok resolved world => .ok resolved (unboxing, world)
    | .error fault world => .error fault (unboxing, world)
  | caching inner known, method, world =>
    match known.lookup method with
    | some resolved => .ok resolved (caching inner known, world)
    | none =>
      match inner.resolve method world with
      | .ok resolved (inner, world) =>
        .ok resolved (caching inner ((method, resolved) :: known), world)
      | .error fault (inner, world) => .error fault (caching inner known, world)

def ofFlavor : Flavor → Resolver
  | .v2 => caching unboxing []
  | .v40 | .v45 => caching instantiating []

end Resolver

end CilCapture.Engine
