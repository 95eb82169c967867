import CilCapture.Capture.Recorder
import CilCapture.Proofs.Compile.Coupling
import CilCapture.Proofs.Outcome

/-!
# Errands that do the same

What an errand does is what becomes of the world up to its next call, and from there on by what the
call returns. `Errand.Like` says of an errand and variants of it, each in its own world, that they
make the same calls and come to the same result, with the worlds related at each call and in the
end. How often they look at the world or store it in between is their own affair.

Such errands come to the same in coupled processes, if the coupling looks at worlds no further than
the relation does: within a callback (`agree_ofErrand`) and by themselves (`agree_perform`).

The relation is stated from a moment on and not of whole errands, so that its proof can go along the
errand: an observation and a store are steps of one side only, a call is a step of both.
`Errand.advance` takes an errand to its next call and is what both sides are compared by.
-/

namespace CilCapture.Compile

variable {ι C C' W W' ε α : Type}

/-! ## Up to the next call -/

namespace Errand

/-- The errand as it goes on from its next call or its end, and the world that it has come to. -/
def advance : Errand ε W α → W → Errand ε W α × W
  | done result, world => (done result, world)
  | observe next, world => (next world).advance world
  | store world next, _ => next.advance world
  | compile call next, world => (compile call next, world)

/-- An errand from a world and variants of it from worlds of their own do the same from here on: the
calls are of one kind, the results of another, and the worlds are related whenever a call is made
and in the end. -/
def Like (S : W → (ι → W') → Prop) (admits : CompileCall → Prop) (gives : Except ε α → Prop) :
    Errand ε W α → W → (ι → Errand ε W' α) → (ι → W') → Prop
  | done result, world, errands, worlds => gives result ∧ ∃ finals,
    (∀ i, (errands i).advance (worlds i) = (done result, finals i)) ∧ S world finals
  | observe next, world, errands, worlds => (next world).Like S admits gives world errands worlds
  | store world next, _, errands, worlds => next.Like S admits gives world errands worlds
  | compile call next, world, errands, worlds => admits call ∧
    ∃ (nexts : ι → Int32 → Errand ε W' α) (middles : ι → W'),
      (∀ i, (errands i).advance (worlds i) = (compile call (nexts i), middles i)) ∧
      S world middles ∧ ∀ result after afters, S after afters →
        (next result).Like S admits gives after (fun i => nexts i result) afters

end Errand

/-! ## Carrying out -/

/-- A relation between processes that looks at their worlds no further than one between worlds. -/
structure Over (S : W → (ι → W') → Prop) (R : Process C W → (ι → Process C' W') → Prop) : Prop where
  worlds : ∀ {process variants}, R process variants → S process.world fun i => (variants i).world
  move : ∀ {process variants}, R process variants → ∀ {world worlds}, S world worlds →
    R { process with world } fun i => { variants i with world := worlds i }

end CilCapture.Compile

namespace CilCapture.Capture

open Compile Engine

variable {ι C C' W W' ε α : Type}

section

variable {enter : CompileCall → Process C W → Int32 × Process C W}
variable {sift : CompileEvent → Process C W → FilterOutcome × Process C W}

/-- Advancing an errand is what running it begins with, so a run may be told from the next call on.
-/
theorem run_advance (errand : Errand ε W α) (process : Process C W) :
    (Response.ofErrand errand).run enter sift process =
      (Response.ofErrand (errand.advance process.world).1).run enter sift
        { process with world := (errand.advance process.world).2 } := by
  induction errand generalizing process with
  | done result => rfl
  | observe next ih => exact ih process.world process
  | store world next ih => exact ih { process with world }
  | compile call next ih => rfl

/-- At a call the run goes through the entry and on with its result. -/
theorem run_compile (call : CompileCall) (next : Int32 → Errand ε W α) (process : Process C W) :
    (Response.ofErrand (.compile call next)).run enter sift process =
      (Response.ofErrand (next (enter call process).1)).run enter sift (enter call process).2 := rfl

variable {enter' : CompileCall → Process C' W' → Int32 × Process C' W'}
variable {sift' : CompileEvent → Process C' W' → FilterOutcome × Process C' W'}
variable {admits : CompileCall → Prop}
variable {S : W → (ι → W') → Prop} {R : Process C W → (ι → Process C' W') → Prop}

/-- Errands that do the same come to the same as parts of callbacks, if the calls do. -/
theorem agree_ofErrand (enters : ∀ call, admits call → Couples R (enter call) (enter' call))
    (overWorlds : Over S R) {gives : Except ε α → Prop} {errand : Errand ε W α}
    {errands : ι → Errand ε W' α} {process : Process C W} {variants : ι → Process C' W'}
    (related : R process variants)
    (like : errand.Like S admits gives process.world errands fun i => (variants i).world) :
    Agree R ((Response.ofErrand errand).run enter sift process)
        (fun i => (Response.ofErrand (errands i)).run enter' sift' (variants i)) ∧
      ∀ result, ((Response.ofErrand errand).run enter sift process).1 = some result →
        gives result := by
  -- Between two calls the worlds need not be related, so all that is kept is that they can be.
  have movable : ∀ world worlds, S world worlds →
      R { process with world } fun i => { variants i with world := worlds i } :=
    fun _ _ => overWorlds.move related
  clear related
  induction errand generalizing process errands variants with
  | done result =>
    obtain ⟨given, finals, same, there⟩ := like
    have finished (i : ι) : (Response.ofErrand (errands i)).run enter' sift' (variants i) =
        (some result, { variants i with world := finals i }) := by
      rw [run_advance, same]
      rfl
    refine ⟨⟨_, finished, movable process.world finals there⟩, ?_⟩
    rintro _ ⟨⟩
    exact given
  | observe next ih => exact ih process.world like movable
  | store world next ih => exact @ih errands { process with world } variants like movable
  | compile call next ih =>
    obtain ⟨admitted, nexts, middles, same, there, rest⟩ := like
    obtain ⟨entered, returned, related⟩ := enters call admitted
      { process with world := process.world } _ (movable process.world middles there)
    have finished (i : ι) : (Response.ofErrand (errands i)).run enter' sift' (variants i) =
        (Response.ofErrand (nexts i (enter call process).1)).run enter' sift' (entered i) := by
      have returned_here : enter' call { variants i with world := middles i } =
        ((enter call process).1, entered i) := returned i
      rw [run_advance, same, run_compile, returned_here]
    simp only [run_compile, finished]
    exact ih _ (rest _ _ _ (overWorlds.worlds related)) fun _ _ => overWorlds.move related

end

section

variable [Introspection W] [NativeCode W]

/-- Carrying out an errand is running it as a callback that makes its calls at the entry points. -/
theorem run_ofErrand (errand : Errand ε W α) (process : Process C W) :
    (Response.ofErrand errand).run Process.enter Process.sift process =
      (some (resultOf (Process.perform errand process)),
        finalState (Process.perform errand process)) := by
  induction errand generalizing process with
  | done result => cases result <;> rfl
  | observe next ih => exact ih process.world process
  | store world next ih => exact ih { process with world }
  | compile call next ih => exact ih _ _

variable [Introspection W'] [NativeCode W'] {admits : CompileCall → Prop}
variable {S : W → (ι → W') → Prop} {R : Process C W → (ι → Process C' W') → Prop}

/-- Errands that do the same come to the same in coupled processes. -/
theorem agree_perform (coupling : Coupling admits R) (overWorlds : Over S R)
    {gives : Except ε α → Prop} {errand : Errand ε W α} {errands : ι → Errand ε W' α}
    {process : Process C W} {variants : ι → Process C' W'} (related : R process variants)
    (like : errand.Like S admits gives process.world errands fun i => (variants i).world) :
    (∀ i, resultOf (Process.perform (errands i) (variants i)) =
        resultOf (Process.perform errand process)) ∧
      (R (finalState (Process.perform errand process)) fun i =>
        finalState (Process.perform (errands i) (variants i))) ∧
      gives (resultOf (Process.perform errand process)) := by
  have ran : Agree R ((Response.ofErrand errand).run Process.enter Process.sift process)
      (fun i => (Response.ofErrand (errands i)).run Process.enter Process.sift (variants i)) ∧
      ∀ result, ((Response.ofErrand errand).run Process.enter Process.sift process).1 =
        some result → gives result :=
    agree_ofErrand (fun call admitted => couples_enter coupling admitted) overWorlds related like
  simp only [run_ofErrand] at ran
  obtain ⟨⟨finals, same, there⟩, given⟩ := ran
  simp only [Prod.mk.injEq, Option.some.injEq] at same
  obtain rfl : finals = fun i => finalState (Process.perform (errands i) (variants i)) :=
    funext fun i => (same i).2.symm
  exact ⟨fun i => (same i).1, there, given _ rfl⟩

end

end CilCapture.Capture
