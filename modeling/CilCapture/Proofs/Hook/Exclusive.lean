import CilCapture.Proofs.Hook.Attempts
import CilCapture.Proofs.Hook.Redirect

/-!
# At most one redirect

Redirects are created and given up in any order, and a creation may fail wherever it likes. At every
point at most one redirect is alive, and the session is held exactly when one is: a creation that
fails has given the session back, one that is refused never had it, and a redirect that is given up
returns it even if it could not be removed (`session_exclusive`).

The invariant is `Accounted`; each step of `Alive` keeps it. While the session is held a creation
does not come to look at memory at all, so what it answers is the same in every memory.

The states are those of any interleaving: redirects of either kind, created by any thread from any
context, on any memory that the laws hold of. A failing creation is a step of its own, so the
induction also covers the ones that fail after the session was taken.
-/

namespace CilCapture.Hook

open Compile Memory

variable {C W : Type}

/-! ## What the operations do to the session -/

section

variable [AddressSpace W] (redirect : Redirect) (process : Process C W)

/-- Installing leaves the session held or free as it is. -/
theorem sessionHeld_install :
    (redirect.install process).2.2.sessionHeld = process.sessionHeld := by
  rcases redirect.install_cases process with
    ⟨-, refused⟩ | ⟨-, ⟨world, -, done⟩ | ⟨fault, world, -, failed⟩⟩
  · rw [refused]
  · rw [done]
    exact sessionHeld_setSlot _ _ _
  · rw [failed]
    exact sessionHeld_setSlot _ _ _

/-- Removing leaves the session held or free as it is. -/
theorem sessionHeld_remove :
    (redirect.remove process).2.2.sessionHeld = process.sessionHeld := by
  rcases redirect.remove_cases process with
    ⟨-, refused⟩ | ⟨-, ⟨world, -, done⟩ | ⟨fault, world, -, failed⟩⟩
  · rw [refused]
  · rw [done]
    exact sessionHeld_setSlot _ _ _
  · rw [failed]

/-- Giving a redirect up frees the session, whatever becomes of its bytes. -/
theorem sessionHeld_drop : (redirect.drop process).sessionHeld = false := by
  rcases redirect.drop_cases process with ⟨-, done⟩ | ⟨-, world, notices, -, done⟩
  · rw [done]
    rfl
  · rw [done]
    rfl

end

section

variable [AddressSpace W] [Engine.CodeSpace W] {owner : ThreadId} {kind : HookKind}
  {context : HookContext} {process : Process C W}

/-- While the session is held, creations are refused, and memory is not looked at. -/
theorem create_of_held (held : process.sessionHeld = true) :
    create owner kind context process = .error .hookActive process := by
  have refused : acquireSession process = .error .hookActive process := if_pos held
  rw [create, refused]

/-- A creation succeeds with the site that is found in the world. -/
theorem create_of_found (free : process.sessionHeld = false) {site : HookSite} {world : W}
    (found : findSite kind context process.world = .ok site world) :
    create owner kind context process =
      .ok { kind, site, installed := false,
            slot := { owner, layout := context.environment.layout, replaced := site.routine } }
        { process with filter := .disarmed context.resolver, sessionHeld := true, world } := by
  have acquired : acquireSession process = .ok () { process with sessionHeld := true } :=
    if_neg (ne_true_of_eq_false free)
  rw [create, acquired]
  dsimp only [Process.onWorld]
  rw [found]

/-- A creation fails where the search for a site fails, and gives the session back. -/
theorem create_of_failed (free : process.sessionHeld = false) {fault : Fault} {world : W}
    (failed : findSite kind context process.world = .error fault world) :
    create owner kind context process = .error fault { process with world } := by
  have acquired : acquireSession process = .ok () { process with sessionHeld := true } :=
    if_neg (ne_true_of_eq_false free)
  rw [create, acquired]
  dsimp only [Process.onWorld]
  rw [failed]
  dsimp only [releaseSession]
  rw [← free]

/-- A creation that fails is refused, or it was the search for a site that failed. -/
theorem create_eq_error {fault : Fault} {later : Process C W}
    (failed : create owner kind context process = .error fault later) :
    (process.sessionHeld = true ∧ fault = .hookActive ∧ later = process) ∨
      process.sessionHeld = false ∧ ∃ world,
        findSite kind context process.world = .error fault world ∧
        later = { process with world } := by
  by_cases held : process.sessionHeld = true
  · rw [create_of_held held] at failed
    cases failed
    exact .inl ⟨held, rfl, rfl⟩
  · have free := eq_false_of_ne_true held
    cases result : findSite kind context process.world with
    | ok site world =>
      rw [create_of_found free result] at failed
      cases failed
    | error fault' world =>
      rw [create_of_failed free result] at failed
      cases failed
      exact .inr ⟨free, world, rfl, rfl⟩

end

/-! ## Redirects that are alive -/

/-- The states of a process in which creations of redirects succeed and fail, and redirects are
installed, removed and given up, in any order; with the redirects that are alive. Whatever else
happens leaves the session alone. -/
inductive Alive [AddressSpace W] [Engine.CodeSpace W] (possible : W → Prop) :
    List Redirect → Process C W → Prop
  | idle (client : C) {world : W} (here : possible world) :
      Alive possible [] (Process.idle client world)
  | created {live : List Redirect} {process fresh : Process C W} {owner : ThreadId}
      {kind : HookKind} {context : HookContext} {redirect : Redirect}
      (before : Alive possible live process)
      (created : create owner kind context process = .ok redirect fresh) :
      Alive possible (redirect :: live) fresh
  | refused {live : List Redirect} {process later : Process C W} {owner : ThreadId}
      {kind : HookKind} {context : HookContext} {fault : Fault}
      (before : Alive possible live process)
      (failed : create owner kind context process = .error fault later) :
      Alive possible live later
  | install {older younger : List Redirect} {redirect : Redirect} {process : Process C W}
      (before : Alive possible (younger ++ redirect :: older) process) :
      Alive possible (younger ++ (redirect.install process).2.1 :: older)
        (redirect.install process).2.2
  | remove {older younger : List Redirect} {redirect : Redirect} {process : Process C W}
      (before : Alive possible (younger ++ redirect :: older) process) :
      Alive possible (younger ++ (redirect.remove process).2.1 :: older)
        (redirect.remove process).2.2
  | drop {older younger : List Redirect} {redirect : Redirect} {process : Process C W}
      (before : Alive possible (younger ++ redirect :: older) process) :
      Alive possible (younger ++ older) (redirect.drop process)
  | meanwhile {live : List Redirect} {process later : Process C W}
      (before : Alive possible live process) (here : possible later.world)
      (session : later.sessionHeld = process.sessionHeld) : Alive possible live later

/-- At most one redirect is alive, and the session is held when one is. -/
structure Accounted (live : List Redirect) (process : Process C W) : Prop where
  at_most_one : live.length ≤ 1
  session : process.sessionHeld = true ↔ live ≠ []

namespace Accounted

variable {live others : List Redirect} {process later : Process C W}

/-- The session is free just when no redirect is alive. -/
theorem free_iff (accounted : Accounted live process) :
    process.sessionHeld = false ↔ live = [] := by
  rw [← Bool.not_eq_true, accounted.session, not_not]

/-- A step that leaves the session alone may exchange the redirects that are alive. -/
theorem congr (accounted : Accounted live process) (length_eq : others.length = live.length)
    (session : later.sessionHeld = process.sessionHeld) : Accounted others later := by
  refine ⟨length_eq ▸ accounted.at_most_one, ?_⟩
  rw [session, accounted.session, ne_eq, ne_eq, ← List.length_eq_zero_iff,
    ← List.length_eq_zero_iff, length_eq]

/-- A redirect that is alive is the only one. -/
theorem alone {younger older : List Redirect} {redirect : Redirect}
    (accounted : Accounted (younger ++ redirect :: older) process) : younger ++ older = [] := by
  have bound := accounted.at_most_one
  rw [List.length_append, List.length_cons] at bound
  rw [← List.length_eq_zero_iff, List.length_append]
  omega

end Accounted

section

variable [AddressSpace W] [Engine.CodeSpace W] {possible : W → Prop}

/-- Every step keeps the account. -/
theorem accounted_of_alive (memory : SparingMemory possible) {live : List Redirect}
    {process : Process C W} (alive : Alive possible live process) :
    possible process.world ∧ Accounted live process := by
  induction alive with
  | idle client here => exact ⟨here, Nat.zero_le 1, by simp [Process.idle]⟩
  | @created live process fresh owner kind context redirect before created ih =>
    obtain ⟨here, accounted⟩ := ih
    obtain ⟨free, -, -, found, held, -⟩ := create_eq_ok created
    have there := (harmless_findSite memory kind context).keeps _ here
    rw [found] at there
    cases accounted.free_iff.mp free
    exact ⟨there, Nat.le_refl 1, by simp [held]⟩
  | @refused live process later owner kind context fault before failed ih =>
    obtain ⟨here, accounted⟩ := ih
    rcases create_eq_error failed with ⟨-, -, rfl⟩ | ⟨-, world, search, rfl⟩
    · exact ⟨here, accounted⟩
    · have there := (harmless_findSite memory kind context).keeps _ here
      rw [search] at there
      exact ⟨there, accounted.congr rfl rfl⟩
  | @install older younger redirect process before ih =>
    refine ⟨possible_install memory.toByteMemory redirect ih.1, ?_⟩
    exact ih.2.congr (by simp) (sessionHeld_install redirect process)
  | @remove older younger redirect process before ih =>
    refine ⟨possible_remove memory.toByteMemory redirect ih.1, ?_⟩
    exact ih.2.congr (by simp) (sessionHeld_remove redirect process)
  | @drop older younger redirect process before ih =>
    refine ⟨possible_drop memory.toByteMemory redirect ih.1, ?_⟩
    rw [ih.2.alone]
    exact ⟨Nat.zero_le 1, by simp [sessionHeld_drop]⟩
  | meanwhile before here session ih => exact ⟨here, ih.2.congr rfl session⟩

/-- At most one redirect is alive, and the session is held exactly when one is. A creation fails for
that reason exactly when one is, and then its answer has nothing to do with memory; one that fails
for another reason leaves the session free and changes no byte that could be read. Once the redirect
is given up, creations succeed that would in a process that never had one. -/
theorem session_exclusive (memory : SparingMemory possible) {live : List Redirect}
    {process : Process C W} (alive : Alive possible live process) :
    live.length ≤ 1 ∧
    (process.sessionHeld = true ↔ live ≠ []) ∧
    (∀ owner kind context,
      ((∃ later, create owner kind context process = .error .hookActive later) ↔ live ≠ []) ∧
      (live ≠ [] → ∀ (other : AddressSpace W) (code : Engine.CodeSpace W),
        @create C W other code owner kind context process = .error .hookActive process) ∧
      ∀ fault later, fault ≠ .hookActive →
        create owner kind context process = .error fault later →
        later.sessionHeld = false ∧ Extends process.world later.world ∧
          later = { process with world := later.world }) ∧
    ∀ redirect ∈ live, ∀ owner kind context (client : C) fresh after,
      create owner kind context (Process.idle client (redirect.drop process).world) =
        .ok fresh after →
      ∃ later, create owner kind context (redirect.drop process) = .ok fresh later := by
  obtain ⟨here, accounted⟩ := accounted_of_alive memory alive
  refine ⟨accounted.at_most_one, accounted.session, ?_, ?_⟩
  · intro owner kind context
    have search := harmless_findSite memory kind context
    refine ⟨⟨?_, ?_⟩, ?_, ?_⟩
    · rintro ⟨later, failed⟩
      rcases create_eq_error failed with ⟨held, -, -⟩ | ⟨-, world, failed, -⟩
      · exact accounted.session.mp held
      · exact absurd failed (search.unrelated here)
    · exact fun some_alive => ⟨process, create_of_held (accounted.session.mpr some_alive)⟩
    · intro some_alive other code
      exact @create_of_held C W other code _ _ _ _ (accounted.session.mpr some_alive)
    · intro fault later unrelated failed
      rcases create_eq_error failed with ⟨-, rfl, -⟩ | ⟨free, world, search_failed, rfl⟩
      · exact absurd rfl unrelated
      · have grown := search.grows here
        rw [search_failed] at grown
        exact ⟨free, grown, rfl⟩
  · intro redirect mem owner kind context client fresh after created
    obtain ⟨free, -, -, found, -, -⟩ := create_eq_ok created
    obtain ⟨same, -⟩ := EStateM.Result.ok.inj ((create_of_found free found).symm.trans created)
    rw [create_of_found (sessionHeld_drop redirect process) found, same]
    exact ⟨_, rfl⟩

end

open Rehearsal

/-- What is needed to find a site, but for the compiler. -/
def noCompiler : HookContext := { tableContext with environment := default }

/-- A creation that finds no compiler frees the session again, a second redirect is refused while
the first one lives, and after that one is given up there can be another. -/
theorem session_exclusive_sealed :
    ∃ fault free redirect fresh,
      create 1 .table noCompiler (Process.idle () sealedTable) = .error fault free ∧
      free.sessionHeld = false ∧
      create 1 .table tableContext free = .ok redirect fresh ∧
      create 2 .call tableContext fresh = .error .hookActive fresh ∧
      ∃ again later, create 2 .table tableContext
        ((redirect.install fresh).2.1.drop (redirect.install fresh).2.2) = .ok again later := by
  have sound : sealedTable.memory.Sound :=
    GuardedMemory.sound_of_region (by decide) (List.forall_mem_singleton.mpr (by decide))
  have idle : Alive (fun world : World => world.memory.Sound) [] (Process.idle () sealedTable) :=
    .idle () sound
  have failed : create 1 .table noCompiler (Process.idle () sealedTable) = .error _ _ := rfl
  have created : create 1 .table tableContext (Process.idle () sealedTable) = .ok _ _ := rfl
  obtain ⟨-, -, at_rest, -⟩ := session_exclusive rehearsal_sparing idle
  obtain ⟨free, -, -⟩ := (at_rest 1 .table noCompiler).2.2 (.hookState .noInstance) _ nofun failed
  have alive := (idle.refused failed).created created
  obtain ⟨-, -, held, -⟩ := session_exclusive rehearsal_sparing alive
  have refused := (held 2 .call tableContext).2.1 nofun inferInstance inferInstance
  have up := Alive.install (show Alive _ ([] ++ _ :: []) _ from alive)
  obtain ⟨-, -, -, given_up⟩ := session_exclusive rehearsal_sparing up
  have again := given_up _ List.mem_cons_self 2 .table tableContext () _ _ rfl
  exact ⟨_, _, _, _, failed, free, created, refused, _, again⟩

end CilCapture.Hook
