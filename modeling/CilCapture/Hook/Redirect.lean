import CilCapture.Compile.Process
import CilCapture.Hook.Site

/-!
# Redirects

A redirect owns the process-wide session from its creation to its end, so there is at most one.
While it is installed, its site holds the bytes that lead to the entry point and its slot is
published; else the site holds what was found there and the slot is empty. Installing publishes
the slot first and withdraws it if the write fails; removing writes first. A redirect given up
while it is installed is removed; should that fail, the slot is withdrawn all the same.
-/

namespace CilCapture.Hook

open Compile Memory

structure Redirect where
  kind : HookKind
  site : HookSite
  slot : Slot
  installed : Bool
  deriving DecidableEq, Repr

variable {C W : Type}

def acquireSession : EStateM Fault (Process C W) Unit := fun process =>
  if process.sessionHeld then .error .hookActive process
  else .ok () { process with sessionHeld := true }

def releaseSession (process : Process C W) : Process C W := { process with sessionHeld := false }

/-- Publishes or withdraws the slot of a kind of redirect. -/
def setSlot (kind : HookKind) (slot : Option Slot) (process : Process C W) : Process C W :=
  match kind with
  | .call => { process with compSlot := slot }
  | .table => { process with methodSlot := slot }

section

variable [AddressSpace W]

/-- Creates a redirect, not installed, with a fresh filter. It belongs to the thread `owner`. -/
def create [Engine.CodeSpace W] (owner : ThreadId) (kind : HookKind) (context : HookContext) :
    EStateM Fault (Process C W) Redirect := fun process =>
  match acquireSession process with
  | .error fault process => .error fault process
  | .ok () process =>
    match Process.onWorld (findSite kind context) process with
    | .error fault process => .error fault (releaseSession process)
    | .ok site process =>
      .ok { kind
            site
            slot := { owner, layout := context.environment.layout, replaced := site.routine }
            installed := false }
        { process with filter := .disarmed context.resolver }

namespace Redirect

/-- The fault of installing an installed redirect. -/
def alreadyInstalled : HookKind → HookStateFault
  | .call => .callAlreadyRedirected
  | .table => .tableAlreadyRedirected

/-- The fault of removing a redirect that is not installed. -/
def notInstalled : HookKind → HookStateFault
  | .call => .callNotRedirected
  | .table => .tableNotRedirected

/-- The notice of a redirect that could not be removed. -/
def leftBehind (redirect : Redirect) (cause : Fault) : Notice :=
  match redirect.kind with
  | .call => .callLeftRedirected redirect.site.address cause
  | .table => .tableLeftRedirected redirect.site.address cause

def install (redirect : Redirect) (process : Process C W) :
    Except Fault Unit × Redirect × Process C W :=
  if redirect.installed then
    (.error (.hookState (alreadyInstalled redirect.kind)), redirect, process)
  else
    let process := setSlot redirect.kind (some redirect.slot) process
    match Process.onWorld (AddressSpace.write redirect.site.address redirect.site.redirected)
        process with
    | .ok () process => (.ok (), { redirect with installed := true }, process)
    | .error fault process => (.error fault, redirect, setSlot redirect.kind none process)

/-- Puts the bytes found at the site back. -/
def remove (redirect : Redirect) (process : Process C W) :
    Except Fault Unit × Redirect × Process C W :=
  if !redirect.installed then
    (.error (.hookState (notInstalled redirect.kind)), redirect, process)
  else
    match Process.onWorld (AddressSpace.write redirect.site.address redirect.site.found)
        process with
    | .ok () process =>
      (.ok (), { redirect with installed := false }, setSlot redirect.kind none process)
    | .error fault process => (.error fault, redirect, process)

/-- Gives the redirect up, and with it the session. -/
def drop (redirect : Redirect) (process : Process C W) : Process C W :=
  let process :=
    if redirect.installed then
      match redirect.remove process with
      | (.ok (), _, process) => process
      | (.error fault, redirect, process) =>
        setSlot redirect.kind none (process.report [redirect.leftBehind fault])
    else process
  releaseSession process

end Redirect

end

end CilCapture.Hook
