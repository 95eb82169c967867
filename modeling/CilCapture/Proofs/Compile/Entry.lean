import CilCapture.Compile.Process

/-!
# Entering and filtering

The entry points differ only in how they come to a slot (`enterWith_eq`). From there a call goes to
the replaced routine, once, or nowhere (`route_eq`). A disarmed filter forwards whatever it is given
(`siftWithin_disarmed`).

These are equations of the definitions in the order in which a reader would ask: is there a slot, is
the call from the owner's thread, what has the filter made of the event. The later modules use them
and never open the entry points again.
-/

namespace CilCapture.Compile

open Engine

variable {C W : Type} [NativeCode W]

/-- The slot that a call is served by, or what is returned for it without one. -/
def Process.entrance (call : CompileCall) (process : Process C W) : Except Int32 Slot :=
  let served (slot : Option Slot) : Except Int32 Slot :=
    match slot with
    | none => .error compileFailed
    | some slot => .ok slot
  match call.routine with
  | .compileMethod => served process.methodSlot
  | .compCompile _ _ => if call.this = 0 then .error compileOk else served process.compSlot

/-- A call is served by the slot it arrives at, or refused by the entry itself. -/
theorem enterWith_eq (sift : CompileEvent → Process C W → FilterOutcome × Process C W)
    (call : CompileCall) (process : Process C W) :
    process.enterWith sift call =
      match process.entrance call with
      | .error result => (result, process)
      | .ok slot => process.route sift slot call := by
  unfold Process.enterWith Process.entrance
  cases call.routine with
  | compileMethod => cases process.methodSlot <;> rfl
  | compCompile method module =>
    dsimp only
    split
    next => rfl
    next => cases process.compSlot <;> rfl

/-- Calls the routine that a redirect replaced. -/
def Process.passOn (slot : Slot) (call : CompileCall) (process : Process C W) :
    Int32 × Process C W :=
  ((NativeCode.compile slot.replaced call process.world).1,
    { process with world := (NativeCode.compile slot.replaced call process.world).2 })

/-- What becomes of a call when the filter is done with its event. -/
def Process.answer (slot : Slot) (call : CompileCall) :
    FilterOutcome × Process C W → Int32 × Process C W
  | (.forward event, process) => process.passOn slot (call.withEvent event)
  | (.claimed, process) => (compileOk, process)
  | (.failed, process) | (.broken, process) => (compileFailed, process)

/-- A call from another thread goes past the filter; on the owner's thread it is answered from what
the filter made of it, a breakdown being contained here. -/
theorem route_eq (sift : CompileEvent → Process C W → FilterOutcome × Process C W) (slot : Slot)
    (call : CompileCall) (process : Process C W) :
    process.route sift slot call =
      if call.thread ≠ slot.owner then process.passOn slot call
      else Process.answer slot call (Process.contain (sift (call.event slot.layout) process)) := by
  unfold Process.route
  dsimp only
  split
  next => rfl
  next =>
    rcases Process.contain (sift (call.event slot.layout) process) with ⟨outcome, after⟩
    cases outcome <;> rfl

/-- A disarmed filter forwards every event and changes nothing. -/
theorem siftWithin_disarmed [Introspection W] {process : Process C W}
    (disarmed : process.filter.targetMethod = 0) (levels : Nat) (event : CompileEvent) :
    process.siftWithin levels event = (.forward event, process) := by
  cases levels with
  | zero => rfl
  | succ levels =>
    unfold Process.siftWithin Process.isTarget
    cases event.request? with
    | none => rfl
    | some request =>
      dsimp only
      split
      next => rfl
      next =>
        rw [if_pos (Or.inl disarmed)]
        rfl

end CilCapture.Compile
