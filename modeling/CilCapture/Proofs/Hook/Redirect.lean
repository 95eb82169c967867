import CilCapture.Hook.Redirect
import CilCapture.Proofs.Hook.Site
import CilCapture.Proofs.Memory.Buffers

/-!
# The life of a redirect

Redirects come and go, one at a time. Of one that is there the flag, the bytes of its site and the
published slot always agree, whatever writes fail: it is installed while the site leads to the entry
point and the slot is published, and else the site holds what was found when it was created and no
slot is published. Once it is gone no slot is left (`redirect_agrees`).

The invariant is `Agrees`; each step of `Lives` keeps it.

What installing and removing come to is said once, by cases on the write (`install_cases`,
`remove_cases`), and once in the direction of success (`install_of_write`, `remove_of_write`). The
invariant has no case for a failed write: a write that fails changes no byte and no flag, so what
held before still does.

Other things may happen between the steps. They are asked to spare the site and the slots
(`Spares`), which calls of the compiler do.
-/

namespace CilCapture.Hook

open Compile Memory

variable {C W : Type}

/-- The slot of a kind of redirect. -/
def slotOf : HookKind → Process C W → Option Slot
  | .call, process => process.compSlot
  | .table, process => process.methodSlot

@[simp] theorem slotOf_setSlot (kind : HookKind) (slot : Option Slot) (process : Process C W) :
    slotOf kind (setSlot kind slot process) = slot := by
  cases kind <;> rfl

/-- Each kind of redirect has a slot of its own. -/
theorem slotOf_setSlot_of_ne {kind other : HookKind} (different : other ≠ kind)
    (slot : Option Slot) (process : Process C W) :
    slotOf other (setSlot kind slot process) = slotOf other process := by
  cases kind <;> cases other <;> first | exact absurd rfl different | rfl

@[simp] theorem world_setSlot (kind : HookKind) (slot : Option Slot) (process : Process C W) :
    (setSlot kind slot process).world = process.world := by
  cases kind <;> rfl

@[simp] theorem filter_setSlot (kind : HookKind) (slot : Option Slot) (process : Process C W) :
    (setSlot kind slot process).filter = process.filter := by
  cases kind <;> rfl

@[simp] theorem client_setSlot (kind : HookKind) (slot : Option Slot) (process : Process C W) :
    (setSlot kind slot process).client = process.client := by
  cases kind <;> rfl

@[simp] theorem sessionHeld_setSlot (kind : HookKind) (slot : Option Slot)
    (process : Process C W) :
    (setSlot kind slot process).sessionHeld = process.sessionHeld := by
  cases kind <;> rfl

@[simp] theorem slotOf_withWorld (kind : HookKind) (process : Process C W) (world : W) :
    slotOf kind { process with world } = slotOf kind process := by
  cases kind <;> rfl

@[simp] theorem slotOf_releaseSession (kind : HookKind) (process : Process C W) :
    slotOf kind (releaseSession process) = slotOf kind process := by
  cases kind <;> rfl

/-- A slot that is set to what it is stays as it is. -/
theorem setSlot_slotOf (kind : HookKind) (process : Process C W) :
    setSlot kind (slotOf kind process) process = process := by
  cases kind <;> rfl

@[simp] theorem setSlot_setSlot (kind : HookKind) (slot other : Option Slot)
    (process : Process C W) :
    setSlot kind slot (setSlot kind other process) = setSlot kind slot process := by
  cases kind <;> rfl

variable [AddressSpace W] {possible : W → Prop}

/-! ## What the operations come to -/

namespace Redirect

/-- Installing is refused to an installed redirect, or it writes the bytes that lead to the entry
point. -/
theorem install_cases (redirect : Redirect) (process : Process C W) :
    (redirect.installed = true ∧ redirect.install process =
        (.error (.hookState (alreadyInstalled redirect.kind)), redirect, process)) ∨
      redirect.installed = false ∧
        ((∃ world, AddressSpace.write redirect.site.address redirect.site.redirected process.world =
              .ok () world ∧
            redirect.install process = (.ok (), { redirect with installed := true },
              setSlot redirect.kind (some redirect.slot) { process with world })) ∨
          ∃ fault world, AddressSpace.write redirect.site.address redirect.site.redirected
              process.world = .error fault world ∧
            redirect.install process = (.error fault, redirect,
              setSlot redirect.kind none { process with world })) := by
  unfold install Process.onWorld
  cases redirect.installed with
  | true => exact .inl ⟨rfl, rfl⟩
  | false =>
    refine .inr ⟨rfl, ?_⟩
    dsimp only
    rw [world_setSlot]
    cases result : AddressSpace.write redirect.site.address redirect.site.redirected
        process.world with
    | ok done world =>
      refine .inl ⟨world, rfl, ?_⟩
      cases redirect.kind <;> rfl
    | error fault world =>
      refine .inr ⟨fault, world, rfl, ?_⟩
      cases redirect.kind <;> rfl

/-- Removing is refused to a redirect that is not installed, or it writes the bytes found. -/
theorem remove_cases (redirect : Redirect) (process : Process C W) :
    (redirect.installed = false ∧ redirect.remove process =
        (.error (.hookState (notInstalled redirect.kind)), redirect, process)) ∨
      redirect.installed = true ∧
        ((∃ world, AddressSpace.write redirect.site.address redirect.site.found process.world =
              .ok () world ∧
            redirect.remove process = (.ok (), { redirect with installed := false },
              setSlot redirect.kind none { process with world })) ∨
          ∃ fault world, AddressSpace.write redirect.site.address redirect.site.found
              process.world = .error fault world ∧
            redirect.remove process = (.error fault, redirect, { process with world })) := by
  unfold remove Process.onWorld
  cases redirect.installed with
  | false => exact .inl ⟨rfl, rfl⟩
  | true =>
    refine .inr ⟨rfl, ?_⟩
    cases result : AddressSpace.write redirect.site.address redirect.site.found process.world with
    | ok done world => exact .inl ⟨world, rfl, rfl⟩
    | error fault world => exact .inr ⟨fault, world, rfl, rfl⟩

/-- A redirect that is not installed is installed when the write to its site succeeds. -/
theorem install_of_write (redirect : Redirect) {process : Process C W} {world : W}
    (removed : redirect.installed = false)
    (wrote : AddressSpace.write redirect.site.address redirect.site.redirected process.world =
      .ok () world) :
    redirect.install process = (.ok (), { redirect with installed := true },
      setSlot redirect.kind (some redirect.slot) { process with world }) := by
  rcases redirect.install_cases process with
    ⟨installed, -⟩ | ⟨-, ⟨world', wrote', done⟩ | ⟨fault, world', failed, -⟩⟩
  · exact absurd (removed.symm.trans installed) Bool.false_ne_true
  · cases wrote.symm.trans wrote'
    exact done
  · cases wrote.symm.trans failed

/-- An installed redirect is removed when the bytes found can be written back. -/
theorem remove_of_write (redirect : Redirect) {process : Process C W} {world : W}
    (installed : redirect.installed = true)
    (wrote : AddressSpace.write redirect.site.address redirect.site.found process.world =
      .ok () world) :
    redirect.remove process = (.ok (), { redirect with installed := false },
      setSlot redirect.kind none { process with world }) := by
  rcases redirect.remove_cases process with
    ⟨removed, -⟩ | ⟨-, ⟨world', wrote', done⟩ | ⟨fault, world', failed, -⟩⟩
  · exact absurd (removed.symm.trans installed) Bool.false_ne_true
  · cases wrote.symm.trans wrote'
    exact done
  · cases wrote.symm.trans failed

/-- Neither the filter nor the callback's state is touched by installing. -/
theorem install_frame (redirect : Redirect) (process : Process C W) :
    (redirect.install process).2.2.filter = process.filter ∧
      (redirect.install process).2.2.client = process.client := by
  rcases install_cases redirect process with
    ⟨-, refused⟩ | ⟨-, ⟨world, -, done⟩ | ⟨fault, world, -, failed⟩⟩
  · exact ⟨by rw [refused], by rw [refused]⟩
  · rw [done]
    exact ⟨filter_setSlot _ _ _, client_setSlot _ _ _⟩
  · rw [failed]
    exact ⟨filter_setSlot _ _ _, client_setSlot _ _ _⟩

/-- Nor are they by removing. -/
theorem remove_frame (redirect : Redirect) (process : Process C W) :
    (redirect.remove process).2.2.filter = process.filter ∧
      (redirect.remove process).2.2.client = process.client := by
  rcases remove_cases redirect process with
    ⟨-, refused⟩ | ⟨-, ⟨world, -, done⟩ | ⟨fault, world, -, failed⟩⟩
  · exact ⟨by rw [refused], by rw [refused]⟩
  · rw [done]
    exact ⟨filter_setSlot _ _ _, client_setSlot _ _ _⟩
  · exact ⟨by rw [failed], by rw [failed]⟩

/-- What removing an installed redirect comes to when the write succeeds. -/
theorem remove_eq_ok {redirect : Redirect} {process : Process C W} {world : W}
    (installed : redirect.installed = true)
    (wrote : AddressSpace.write redirect.site.address redirect.site.found process.world =
      .ok () world) :
    redirect.remove process = (.ok (), { redirect with installed := false },
      setSlot redirect.kind none { process with world }) := by
  unfold remove Process.onWorld
  rw [installed, wrote]
  rfl

/-- Giving a redirect up withdraws its slot if it is installed, and leaves the other one. -/
theorem drop_cases (redirect : Redirect) (process : Process C W) :
    (redirect.installed = false ∧ redirect.drop process = releaseSession process) ∨
      redirect.installed = true ∧ ∃ world notices,
        finalState (AddressSpace.write redirect.site.address redirect.site.found process.world) =
          world ∧
        redirect.drop process =
          releaseSession (setSlot redirect.kind none (({ process with world } :
            Process C W).report notices)) := by
  unfold drop
  rcases remove_cases redirect process with ⟨removed, -⟩ | ⟨installed, result⟩
  · rw [removed]
    exact .inl ⟨rfl, rfl⟩
  · rw [installed]
    rcases result with ⟨world, wrote, finished⟩ | ⟨fault, world, failed, finished⟩
    · rw [finished, wrote]
      refine .inr ⟨rfl, world, [], rfl, ?_⟩
      rw [Process.report, List.append_nil]
      rfl
    · rw [finished, failed]
      exact .inr ⟨rfl, world, _, rfl, rfl⟩

end Redirect

/-! ## Redirects that come and go -/

/-- Whatever else happens to a process, it leaves the slots and the session alone, and the site of
the redirect that is there. -/
structure Spares (live : Option (W × Redirect)) (process later : Process C W) : Prop where
  slots : ∀ kind, slotOf kind later = slotOf kind process
  session : later.sessionHeld = process.sessionHeld
  site : ∀ start redirect, live = some (start, redirect) →
    AddressSpace.read redirect.site.address redirect.site.found.length later.world =
      AddressSpace.read redirect.site.address redirect.site.found.length process.world

section

variable [Engine.CodeSpace W]

/-- The states of a process in which redirects are created, installed, removed and given up. A
redirect that is there comes with the world in which it was created. -/
inductive Lives (possible : W → Prop) : Option (W × Redirect) → Process C W → Prop
  | idle (client : C) {world : W} (here : possible world) :
      Lives possible none (Process.idle client world)
  | create {live : Option (W × Redirect)} {process fresh : Process C W} {owner : ThreadId}
      {kind : HookKind} {context : HookContext} {redirect : Redirect}
      (before : Lives possible live process)
      (created : create owner kind context process = .ok redirect fresh) :
      Lives possible (some (process.world, redirect)) fresh
  | install {start : W} {redirect : Redirect} {process : Process C W}
      (before : Lives possible (some (start, redirect)) process) :
      Lives possible (some (start, (redirect.install process).2.1)) (redirect.install process).2.2
  | remove {start : W} {redirect : Redirect} {process : Process C W}
      (before : Lives possible (some (start, redirect)) process) :
      Lives possible (some (start, (redirect.remove process).2.1)) (redirect.remove process).2.2
  | drop {start : W} {redirect : Redirect} {process : Process C W}
      (before : Lives possible (some (start, redirect)) process) :
      Lives possible none (redirect.drop process)
  | meanwhile {live : Option (W × Redirect)} {process later : Process C W}
      (before : Lives possible live process) (here : possible later.world)
      (spares : Spares live process later) : Lives possible live later

end

/-- What holds of a redirect that is there: the flag, the bytes of the site and the slots agree. -/
structure Agrees (start : W) (redirect : Redirect) (process : Process C W) : Prop where
  recorded : redirect.site.original.Held start
  length_eq : redirect.site.redirected.length = redirect.site.found.length
  session : process.sessionHeld = true
  others : ∀ kind, kind ≠ redirect.kind → slotOf kind process = none
  installed : redirect.installed = true →
    redirect.site.redirecting.Held process.world ∧
      slotOf redirect.kind process = some redirect.slot
  removed : redirect.installed = false →
    redirect.site.original.Held process.world ∧ slotOf redirect.kind process = none

/-- What holds of a process in which redirects come and go. -/
def Standing : Option (W × Redirect) → Process C W → Prop
  | none, process => process.sessionHeld = false ∧ ∀ kind, slotOf kind process = none
  | some (start, redirect), process => Agrees start redirect process

/-- The flag, the slot and the memory may change together. -/
theorem Agrees.moved {start : W} {redirect : Redirect} {process : Process C W}
    (agrees : Agrees start redirect process) {installed : Bool} {slot : Option Slot} {world : W}
    (up : installed = true → redirect.site.redirecting.Held world ∧ slot = some redirect.slot)
    (down : installed = false → redirect.site.original.Held world ∧ slot = none) :
    Agrees start { redirect with installed }
      (setSlot redirect.kind slot { process with world }) where
  recorded := agrees.recorded
  length_eq := agrees.length_eq
  session := by
    rw [sessionHeld_setSlot]
    exact agrees.session
  others := by
    intro kind different
    rw [slotOf_setSlot_of_ne different, slotOf_withWorld]
    exact agrees.others kind different
  installed := by
    rw [world_setSlot, slotOf_setSlot]
    exact up
  removed := by
    rw [world_setSlot, slotOf_setSlot]
    exact down

/-- Installing leads to a possible world, also when its write fails. -/
theorem possible_install (memory : ByteMemory possible) (redirect : Redirect)
    {process : Process C W} (here : possible process.world) :
    possible (redirect.install process).2.2.world := by
  rcases redirect.install_cases process with ⟨-, done⟩ |
    ⟨-, ⟨world, wrote, done⟩ | ⟨fault, world, failed, done⟩⟩
  · rw [done]
    exact here
  · rw [done, world_setSlot]
    exact memory.possible_of_write here wrote
  · rw [done, world_setSlot]
    exact memory.possible_of_write here failed

/-- Installing keeps flag, bytes and slot in agreement: all three change when the write succeeds,
and none of them when it fails. -/
theorem agrees_install (memory : ByteMemory possible) {start : W} {redirect : Redirect}
    {process : Process C W} (here : possible process.world)
    (agrees : Agrees start redirect process) :
    Agrees start (redirect.install process).2.1 (redirect.install process).2.2 := by
  rcases redirect.install_cases process with ⟨-, done⟩ |
    ⟨removed, ⟨world, wrote, done⟩ | ⟨fault, world, failed, done⟩⟩
  · rw [done]
    exact agrees
  · have readable : AddressSpace.read redirect.site.address redirect.site.redirected.length
        process.world = .ok redirect.site.found := by
      rw [agrees.length_eq]
      exact (agrees.removed removed).1
    have placed : redirect.site.redirecting.Held world := memory.held_of_write here wrote readable
    rw [done]
    exact agrees.moved (fun _ => ⟨placed, rfl⟩) nofun
  · have held := (memory.sameBytes_of_failed here failed).held (agrees.removed removed).1
    rw [done]
    apply agrees.moved
    · exact fun installed => absurd (removed.symm.trans installed) Bool.false_ne_true
    · exact fun _ => ⟨held, rfl⟩

/-- Removing leads to a possible world, also when its write fails. -/
theorem possible_remove (memory : ByteMemory possible) (redirect : Redirect)
    {process : Process C W} (here : possible process.world) :
    possible (redirect.remove process).2.2.world := by
  rcases redirect.remove_cases process with ⟨-, done⟩ |
    ⟨-, ⟨world, wrote, done⟩ | ⟨fault, world, failed, done⟩⟩
  · rw [done]
    exact here
  · rw [done, world_setSlot]
    exact memory.possible_of_write here wrote
  · rw [done]
    exact memory.possible_of_write here failed

/-- Removing keeps flag, bytes and slot in agreement: all three change when the write succeeds, and
none of them when it fails. -/
theorem agrees_remove (memory : ByteMemory possible) {start : W} {redirect : Redirect}
    {process : Process C W} (here : possible process.world)
    (agrees : Agrees start redirect process) :
    Agrees start (redirect.remove process).2.1 (redirect.remove process).2.2 := by
  rcases redirect.remove_cases process with ⟨-, done⟩ |
    ⟨installed, ⟨world, wrote, done⟩ | ⟨fault, world, failed, done⟩⟩
  · rw [done]
    exact agrees
  · have readable : AddressSpace.read redirect.site.address redirect.site.found.length
        process.world = .ok redirect.site.redirected := by
      rw [← agrees.length_eq]
      exact (agrees.installed installed).1
    have placed : redirect.site.original.Held world := memory.held_of_write here wrote readable
    rw [done]
    exact agrees.moved nofun fun _ => ⟨placed, rfl⟩
  · obtain ⟨held, published⟩ := agrees.installed installed
    have still := (memory.sameBytes_of_failed here failed).held held
    rw [done]
    dsimp only
    rw [← setSlot_slotOf redirect.kind { process with world }, slotOf_withWorld]
    apply agrees.moved
    · exact fun _ => ⟨still, published⟩
    · exact fun removed => absurd (removed.symm.trans installed) Bool.false_ne_true

/-- Giving a redirect up leads to a possible world, since it does no more than remove it. -/
theorem possible_drop (memory : ByteMemory possible) (redirect : Redirect)
    {process : Process C W} (here : possible process.world) :
    possible (redirect.drop process).world := by
  rcases redirect.drop_cases process with ⟨-, done⟩ | ⟨-, world, notices, wrote, done⟩
  · rw [done]
    exact here
  · rw [done]
    change possible (setSlot redirect.kind none _).world
    rw [world_setSlot, ← wrote]
    exact memory.possible_write here _ _

/-- A redirect that is given up leaves no slot behind, even if it could not be removed. -/
theorem standing_drop {start : W} {redirect : Redirect} {process : Process C W}
    (agrees : Agrees start redirect process) :
    (redirect.drop process).sessionHeld = false ∧
      ∀ kind, slotOf kind (redirect.drop process) = none := by
  have others (final : Process C W) (same : ∀ kind, kind ≠ redirect.kind →
      slotOf kind final = slotOf kind process) (withdrawn : slotOf redirect.kind final = none) :
      ∀ kind, slotOf kind final = none := by
    intro kind
    by_cases own : kind = redirect.kind
    · rw [own, withdrawn]
    · rw [same kind own, agrees.others kind own]
  rcases redirect.drop_cases process with ⟨removed, done⟩ | ⟨-, world, notices, -, done⟩
  · rw [done]
    refine ⟨rfl, others _ ?_ ?_⟩
    · intro kind _
      cases kind <;> rfl
    · rw [← (agrees.removed removed).2]
      cases redirect.kind <;> rfl
  · rw [done]
    refine ⟨rfl, others _ ?_ ?_⟩
    · intro kind different
      rw [slotOf_releaseSession, slotOf_setSlot_of_ne different]
      cases kind <;> rfl
    · rw [slotOf_releaseSession, slotOf_setSlot]

/-- What else happens leaves a redirect standing, as it spares the site and the slots. -/
theorem standing_meanwhile {live : Option (W × Redirect)} {process later : Process C W}
    (standing : Standing live process) (spares : Spares live process later) :
    Standing live later := by
  cases live with
  | none =>
    exact ⟨spares.session.trans standing.1, fun kind => (spares.slots kind).trans (standing.2 kind)⟩
  | some pair =>
    obtain ⟨start, redirect⟩ := pair
    have agrees : Agrees start redirect process := standing
    have site := spares.site start redirect rfl
    refine ⟨agrees.recorded, agrees.length_eq, spares.session.trans agrees.session, ?_, ?_, ?_⟩
    · exact fun kind different => (spares.slots kind).trans (agrees.others kind different)
    · intro installed
      obtain ⟨held, published⟩ := agrees.installed installed
      refine ⟨?_, (spares.slots _).trans published⟩
      unfold Store.Held HookSite.redirecting at held ⊢
      dsimp only at held ⊢
      rw [agrees.length_eq] at held ⊢
      exact site.trans held
    · intro removed
      obtain ⟨held, withdrawn⟩ := agrees.removed removed
      exact ⟨site.trans held, (spares.slots _).trans withdrawn⟩

section

variable [Engine.CodeSpace W]

/-- A redirect is created when there is none, at a site found in the world as it is. -/
theorem create_eq_ok {owner : ThreadId} {kind : HookKind} {context : HookContext}
    {process fresh : Process C W} {redirect : Redirect}
    (created : create owner kind context process = .ok redirect fresh) :
    process.sessionHeld = false ∧ redirect.kind = kind ∧ redirect.installed = false ∧
      findSite kind context process.world = .ok redirect.site fresh.world ∧
      fresh.sessionHeld = true ∧ ∀ kind, slotOf kind fresh = slotOf kind process := by
  unfold create at created
  cases held : process.sessionHeld with
  | true =>
    have refused : acquireSession process = .error .hookActive process := if_pos held
    rw [refused] at created
    cases created
  | false =>
    have acquired : acquireSession process = .ok () { process with sessionHeld := true } :=
      if_neg (ne_true_of_eq_false held)
    rw [acquired] at created
    dsimp only [Process.onWorld] at created
    cases located : findSite kind context process.world with
    | error fault world =>
      rw [located] at created
      cases created
    | ok site world =>
      rw [located] at created
      cases created
      refine ⟨rfl, rfl, rfl, rfl, rfl, ?_⟩
      intro kind
      cases kind <;> rfl

/-- A redirect that was just created agrees with its process: nothing is installed, the slots are
empty, and the site holds what was found. The search for it may have placed code, but apart from the
site. -/
theorem agrees_create (memory : GrowingMemory possible) (places : PlacesApart possible)
    {owner : ThreadId} {kind : HookKind} {context : HookContext} {process fresh : Process C W}
    {redirect : Redirect} (here : possible process.world)
    (vacant : ∀ kind, slotOf kind process = none)
    (created : create owner kind context process = .ok redirect fresh) :
    possible fresh.world ∧ Agrees process.world redirect fresh := by
  obtain ⟨-, rfl, removed, found, session, same⟩ := create_eq_ok created
  obtain ⟨there, grown, held, length_eq⟩ := found_of_findSite memory places here found
  have withdrawn : ∀ kind, slotOf kind fresh = none := fun kind => (same kind).trans (vacant kind)
  refine ⟨there, held, length_eq, session, fun kind _ => withdrawn kind, ?_, ?_⟩
  · exact fun installed => absurd (removed.symm.trans installed) Bool.false_ne_true
  · exact fun _ => ⟨grown.keeps held, withdrawn _⟩

/-- Every step keeps the redirect that is there in agreement. -/
theorem standing_of_lives (memory : GrowingMemory possible) (places : PlacesApart possible)
    {live : Option (W × Redirect)} {process : Process C W} (lives : Lives possible live process) :
    possible process.world ∧ Standing live process := by
  induction lives with
  | idle client here => exact ⟨here, rfl, fun kind => by cases kind <;> rfl⟩
  | @create live process fresh owner kind context redirect before created ih =>
    obtain ⟨here, standing⟩ := ih
    obtain ⟨vacant, -⟩ := create_eq_ok created
    cases live with
    | none => exact agrees_create memory places here standing.2 created
    | some pair => exact absurd (vacant.symm.trans standing.session) Bool.false_ne_true
  | install before ih =>
    exact ⟨possible_install memory.toByteMemory _ ih.1,
      agrees_install memory.toByteMemory ih.1 ih.2⟩
  | remove before ih =>
    exact ⟨possible_remove memory.toByteMemory _ ih.1,
      agrees_remove memory.toByteMemory ih.1 ih.2⟩
  | drop before ih => exact ⟨possible_drop memory.toByteMemory _ ih.1, standing_drop ih.2⟩
  | meanwhile before here spares ih => exact ⟨here, standing_meanwhile ih.2 spares⟩

/-- The flag of a redirect tells whether its site leads to the entry point and its slot is
published; if not, the site holds what was found when it was created, and no slot is published.
Operations out of turn are refused. In turn it is the write to the site that decides: where that
succeeds the operation does, the flag is flipped and the slot published or withdrawn, and where it
fails nothing is changed. A redirect that is given up leaves no slot behind. -/
theorem redirect_agrees (memory : GrowingMemory possible) (places : PlacesApart possible)
    {live : Option (W × Redirect)} {process : Process C W} (lives : Lives possible live process) :
    (live = none → ∀ kind, slotOf kind process = none) ∧
      ∀ start redirect, live = some (start, redirect) →
        redirect.site.original.Held start ∧
        (redirect.installed = true ↔ redirect.site.redirecting.Held process.world ∧
          slotOf redirect.kind process = some redirect.slot) ∧
        (redirect.installed = false → redirect.site.original.Held process.world ∧
          slotOf redirect.kind process = none) ∧
        (redirect.installed = true → redirect.install process =
          (.error (.hookState (Redirect.alreadyInstalled redirect.kind)), redirect, process)) ∧
        (redirect.installed = false → redirect.remove process =
          (.error (.hookState (Redirect.notInstalled redirect.kind)), redirect, process)) ∧
        (∀ world, redirect.installed = false →
          AddressSpace.write redirect.site.address redirect.site.redirected process.world =
            .ok () world →
          redirect.install process = (.ok (), { redirect with installed := true },
            setSlot redirect.kind (some redirect.slot) { process with world })) ∧
        (∀ world, redirect.installed = true →
          AddressSpace.write redirect.site.address redirect.site.found process.world =
            .ok () world →
          redirect.remove process = (.ok (), { redirect with installed := false },
            setSlot redirect.kind none { process with world })) ∧
        (∀ fault after later, redirect.installed = false →
          redirect.install process = (.error fault, after, later) →
          after = redirect ∧ SameBytes process.world later.world ∧
            slotOf redirect.kind later = none) ∧
        (∀ fault after later, redirect.installed = true →
          redirect.remove process = (.error fault, after, later) →
          after = redirect ∧ SameBytes process.world later.world ∧
            slotOf redirect.kind later = some redirect.slot) ∧
        ∀ kind, slotOf kind (redirect.drop process) = none := by
  obtain ⟨here, standing⟩ := standing_of_lives memory places lives
  constructor
  · rintro rfl
    exact standing.2
  · rintro start redirect rfl
    have agrees : Agrees start redirect process := standing
    refine ⟨agrees.recorded, ⟨agrees.installed, ?_⟩, agrees.removed, ?_, ?_,
      fun world => redirect.install_of_write, fun world => redirect.remove_of_write, ?_, ?_,
      (standing_drop agrees).2⟩
    -- the slot decides, not the bytes: only an installed redirect has published one
    · rintro ⟨-, published⟩
      cases flag : redirect.installed with
      | true => rfl
      | false => cases (agrees.removed flag).2.symm.trans published
    · intro installed
      rcases redirect.install_cases process with ⟨-, done⟩ | ⟨removed, -⟩
      · exact done
      · exact absurd (removed.symm.trans installed) Bool.false_ne_true
    · intro removed
      rcases redirect.remove_cases process with ⟨-, done⟩ | ⟨installed, -⟩
      · exact done
      · exact absurd (removed.symm.trans installed) Bool.false_ne_true
    -- the flag rules out the refusal, and the fault rules out the success
    · intro fault after later removed result
      rcases redirect.install_cases process with ⟨installed, -⟩ |
        ⟨-, ⟨world, wrote, done⟩ | ⟨fault', world, failed, done⟩⟩
      · exact absurd (removed.symm.trans installed) Bool.false_ne_true
      · cases result.symm.trans done
      · cases result.symm.trans done
        rw [world_setSlot, slotOf_setSlot]
        exact ⟨rfl, memory.sameBytes_of_failed here failed, rfl⟩
    · intro fault after later installed result
      rcases redirect.remove_cases process with ⟨removed, -⟩ |
        ⟨-, ⟨world, wrote, done⟩ | ⟨fault', world, failed, done⟩⟩
      · exact absurd (removed.symm.trans installed) Bool.false_ne_true
      · cases result.symm.trans done
      · cases result.symm.trans done
        refine ⟨rfl, memory.sameBytes_of_failed here failed, ?_⟩
        rw [slotOf_withWorld]
        exact (agrees.installed installed).2

end

open Rehearsal

/-- In the rehearsal code is placed in a region of its own. -/
theorem rehearsal_places : PlacesApart fun world : World => world.memory.Sound := by
  intro world placed code address sound done
  cases done
  exact ⟨sound, ⟨id⟩⟩

/-- A compiler whose table can be written once. -/
def sealedTable : World :=
  .ofMemory ⟨⟨[⟨0x1000, [0x04, 0x10, 0, 0, 0, 0x70, 0, 0]⟩]⟩, [], [⟨0x1004, 4⟩]⟩

def tableContext : HookContext where
  environment := { (default : Engine.Environment) with
    modules := { (default : Engine.Modules) with compilerInstance := 0x1000 } }
  table := ⟨default, default, fun _ => 0⟩
  entries := ⟨0x5000, 0x6000⟩
  resolver := .passthrough

/-- The table can be written once, so the removal fails: the redirect stays installed, bytes and
slot with it, until it is given up, which empties the slot all the same. -/
theorem redirect_agrees_sealed :
    ∃ redirect fresh, create 1 .table tableContext (Process.idle () sealedTable) =
        .ok redirect fresh ∧
      ∃ fault up after, (redirect.install fresh).2.1.remove (redirect.install fresh).2.2 =
          (.error fault, up, after) ∧
        up.installed = true ∧
        AddressSpace.read 0x1004 4 after.world = .ok [0, 0x50, 0, 0] ∧
        slotOf .table after = some redirect.slot ∧
        slotOf .table (up.drop after) = none := by
  have sound : sealedTable.memory.Sound :=
    GuardedMemory.sound_of_region (by decide) (List.forall_mem_singleton.mpr (by decide))
  refine ⟨_, _, rfl, _, _, _, rfl, rfl, ?_⟩
  have idle : Lives (fun world : World => world.memory.Sound) none (Process.idle () sealedTable) :=
    .idle () sound
  have created : create 1 .table tableContext (Process.idle () sealedTable) = .ok _ _ := rfl
  have lives := (idle.create created).install.remove
  have states := (redirect_agrees rehearsal_growing rehearsal_places lives).2 _ _ rfl
  obtain ⟨-, agrees, -, -, -, -, -, -, -, withdrawn⟩ := states
  obtain ⟨held, published⟩ := agrees.mp rfl
  exact ⟨held, published, withdrawn .table⟩

end CilCapture.Hook
