import CilCapture.Engine.Identity
import CilCapture.Proofs.Outcome

/-!
# Resolving handles by fixed facts

An engine that answers a question about a method the same whenever it is asked makes of a resolver a
function of the handle (`Resolver.rule`). What a resolver remembers then makes no difference but for
how often the engine is asked (`resolve_spec`).

The facts are a parameter, so nothing is said of what the engine answers, only that it does so
always. A resolver that remembers is sound if what it remembers is what the facts say
(`Resolver.Sound`), and resolving keeps it so. This is what lets a filter's decision be told by
facts in the later modules; resolvers whose engine may fail in between are in `Remembering`.
-/

namespace CilCapture

/-- A step that comes to the same result wherever a condition holds, and keeps the condition. -/
def ComesTo {ε σ α : Type} (holds : σ → Prop) (result : Except ε α) (step : EStateM ε σ α) : Prop :=
  ∀ state, holds state → ∃ final, holds final ∧ step state = resultIn final result

namespace Engine

/-- What an engine answers about methods, once and for all. -/
structure Facts where
  isValueTypeMember : Handle → Except Fault Bool
  instantiatingStub : Handle → Except Fault Handle
  unboxingStub : Handle → Except Fault Handle

namespace Facts

/-- The engine answers by the facts wherever a condition holds, and keeps the condition. -/
structure Told {W : Type} [Introspection W] (facts : Facts) (holds : W → Prop) : Prop where
  isValueTypeMember : ∀ method,
    ComesTo holds (facts.isValueTypeMember method) (Introspection.isValueTypeMember method)
  instantiatingStub : ∀ method,
    ComesTo holds (facts.instantiatingStub method) (Introspection.instantiatingStub method)
  unboxingStub : ∀ method,
    ComesTo holds (facts.unboxingStub method) (Introspection.unboxingStub method)

/-- The owner of a member's code, if it is found by the given stub. -/
def ofValueTypes (facts : Facts) (stub : Handle → Except Fault Handle) (method : Handle) :
    Except Fault Handle :=
  if method = 0 then .ok method
  else
    match facts.isValueTypeMember method with
    | .error fault => .error fault
    | .ok true => stub method
    | .ok false => .ok method

end Facts

namespace Resolver

/-- The owner of a method's code by the facts. -/
def rule (facts : Facts) : Resolver → Handle → Except Fault Handle
  | passthrough => .ok
  | instantiating => facts.ofValueTypes facts.instantiatingStub
  | unboxing => facts.ofValueTypes facts.unboxingStub
  | caching inner _ => inner.rule facts

/-- A resolver that remembers nothing but what is the case. -/
def Sound (facts : Facts) : Resolver → Prop
  | caching inner known => inner.Sound facts ∧
    ∀ method resolved, known.lookup method = some resolved →
      inner.rule facts method = .ok resolved
  | _ => True

/-- A resolver that remembers nothing yet remembers nothing wrong. -/
theorem sound_ofFlavor (facts : Facts) (flavor : Flavor) : (ofFlavor flavor).Sound facts := by
  cases flavor <;> exact ⟨trivial, fun _ _ found => nomatch found⟩

variable {W : Type} [Introspection W] {facts : Facts} {holds : W → Prop}

/-- The rule for members of value types comes to what the facts say, if the stub does. -/
theorem comesTo_ofValueTypes (told : facts.Told holds) {stub : Handle → EStateM Fault W Handle}
    {fact : Handle → Except Fault Handle}
    (same : ∀ method, ComesTo holds (fact method) (stub method)) (method : Handle) :
    ComesTo holds (facts.ofValueTypes fact method) (ofValueTypes stub method) := by
  intro world here
  unfold ofValueTypes Facts.ofValueTypes
  by_cases null : method = 0
  · rw [if_pos null, if_pos null]
    exact ⟨world, here, rfl⟩
  · rw [if_neg null, if_neg null]
    obtain ⟨asked, there, answered⟩ := told.isValueTypeMember method world here
    change ∃ final, holds final ∧ EStateM.bind _ _ world = _
    unfold EStateM.bind
    rw [answered]
    cases facts.isValueTypeMember method with
    | error fault => exact ⟨asked, there, rfl⟩
    | ok isMember =>
      cases isMember with
      | false => exact ⟨asked, there, rfl⟩
      | true => exact same method asked there

/-- A sound resolver answers by the facts and stays sound. -/
theorem resolve_spec (told : facts.Told holds) {resolver : Resolver} (sound : resolver.Sound facts)
    (method : Handle) {world : W} (here : holds world) :
    ∃ after final, resolver.resolve method world =
        resultIn (after, final) (resolver.rule facts method) ∧
      after.Sound facts ∧ after.rule facts = resolver.rule facts ∧ holds final := by
  -- on the resolver: only `caching` wraps another one
  induction resolver generalizing world with
  | passthrough => exact ⟨passthrough, world, rfl, trivial, rfl, here⟩
  | instantiating =>
    obtain ⟨final, there, answered⟩ :=
      comesTo_ofValueTypes told told.instantiatingStub method world here
    refine ⟨instantiating, final, ?_, trivial, rfl, there⟩
    rw [resolve, answered, rule]
    cases facts.ofValueTypes facts.instantiatingStub method <;> rfl
  | unboxing =>
    obtain ⟨final, there, answered⟩ :=
      comesTo_ofValueTypes told told.unboxingStub method world here
    refine ⟨unboxing, final, ?_, trivial, rfl, there⟩
    rw [resolve, answered, rule]
    cases facts.ofValueTypes facts.unboxingStub method <;> rfl
  | caching inner known ih =>
    obtain ⟨inner_sound, remembered⟩ := sound
    rw [resolve]
    cases found : known.lookup method with
    | some resolved =>
      refine ⟨caching inner known, world, ?_, ⟨inner_sound, remembered⟩, rfl, here⟩
      rw [rule, remembered method resolved found]
      rfl
    | none =>
      obtain ⟨after, final, answered, after_sound, same_rule, there⟩ := ih inner_sound here
      rw [answered, rule]
      cases answer : inner.rule facts method with
      | error fault =>
        exact ⟨caching after known, final, rfl,
          ⟨after_sound, fun other resolved known => same_rule ▸ remembered other resolved known⟩,
          same_rule, there⟩
      -- the answer is remembered; what was remembered before is shadowed at no other method
      | ok resolved =>
        refine ⟨caching after ((method, resolved) :: known), final, rfl, ⟨after_sound, ?_⟩,
          same_rule, there⟩
        intro other answer' found'
        rw [same_rule]
        rw [List.lookup_cons] at found'
        by_cases same : other = method
        · subst same
          simp at found'
          exact found' ▸ answer
        · rw [beq_eq_false_iff_ne.mpr same] at found'
          exact remembered other answer' found'

end Resolver

end Engine

end CilCapture
