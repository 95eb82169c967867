import Mathlib.Data.List.Induction
import CilCapture.Capture.Session
import CilCapture.Proofs.Capture.Keeping
import CilCapture.Proofs.Capture.Tally
import CilCapture.Proofs.Hook.Redirect
import CilCapture.Rehearsal.World

/-!
# The accounts of a session

A session is asked for one thing after another while compile calls arrive, and whatever it is asked
for and however the calls nest and fail, its books are right (`session_accounts`): the count is that
of the success records and never falls, each record has the total up to it, and what is staged is
the last capture of the row that was armed last. A call makes the entries of its claims and no
others, and none at all while nothing is armed.

What an act does to the books is a `Posting`; the rest follows from that by induction on the acts.

The acts are looked at one by one in one place only (`posting_act`); what they have in common is
then used for all of them. A compile call is the one act that can do more than one thing to the
books, and what it does is taken from `Tally`, run by run.

Acts may come in any order, also in one that a sweep would never choose. A session may be unhooked
while a row is armed, a body may be taken twice, the workspace may change in between
(`Act.meanwhile`).
-/

namespace CilCapture.Capture

open Body Compile Engine Memory

/-! ## Acts -/

/-- What a session can be asked for and what can happen to it in between. -/
inductive Act (M W : Type) where
  | hook
  | unhook
  | arm (row : Nat) (method : Handle)
  | idle
  | recordFailure (row : Nat)
  | takeStaged
  | takeError
  | install (row : Nat) (body : MethodBody)
  /-- A compile call arrives at its entry point. -/
  | compile (call : CompileCall)
  /-- An event is handed to the filter. -/
  | sift (event : CompileEvent)
  /-- The world goes on, and the output module may be another one. -/
  | meanwhile (workspace : Workspace M W)

namespace Act

variable {M W : Type}

def Arms : Act M W → Prop
  | .arm _ _ => True
  | _ => False

/-- Whether something is to be compiled. -/
def IsEvent : Act M W → Prop
  | .compile _ | .sift _ => True
  | _ => False

end Act

namespace Session

variable {M W : Type} [NativeCode W]

def books (session : Session M W) : Books := session.process.client.books

variable [Introspection W]

/-- The runs of the callback in an act, in the order of their ends. -/
def runs (act : Act M W) (session : Session M W) : List (Interception Recorder) :=
  match act with
  | .compile call => session.process.runsIn (Process.enter call)
  | .sift event => session.process.runsIn (Process.sift event)
  | _ => []

/-- Only what is compiled runs the callback. -/
theorem runs_of_not_event {act : Act M W} (other : ¬ act.IsEvent) (session : Session M W) :
    session.runs act = [] := by
  cases act with
  | compile | sift => exact absurd trivial other
  | _ => rfl

variable [ModuleStore M W] [AddressSpace W]

/-- The session after an act. -/
def act (session : Session M W) : Act M W → Session M W
  | .hook => session.hook.2
  | .unhook => session.unhook.2
  | .arm row method => session.arm row method
  | .idle => session.idle
  | .recordFailure row => session.recordFailure row
  | .takeStaged => session.takeStaged.2
  | .takeError => session.takeError.2
  | .install row body => (session.install row body).2
  | .compile call => session.onProcess fun process => (process.enter call).2
  | .sift event => session.onProcess fun process => (process.sift event).2
  | .meanwhile workspace => session.onProcess ({ · with world := workspace })

/-- The session after some acts. -/
def after (acts : List (Act M W)) (session : Session M W) : Session M W :=
  acts.foldl act session

/-- The runs of the callback in some acts, in the order of their ends. -/
def history : List (Act M W) → Session M W → List (Interception Recorder)
  | [], _ => []
  | act :: acts, session => session.runs act ++ (session.act act).history acts

/-- Whether an act leaves nothing armed, as hooking, unhooking with success and idling do. -/
def PutsToRest (session : Session M W) : Act M W → Prop
  | .hook | .idle => True
  | .unhook => session.unhook.1 = .ok ()
  | _ => False

/-- A session goes through acts one part after the other. -/
theorem after_append (earlier later : List (Act M W)) (session : Session M W) :
    session.after (earlier ++ later) = (session.after earlier).after later :=
  List.foldl_append

/-- The runs of a longer session are those of the shorter one and those of its last act. -/
theorem history_concat (acts : List (Act M W)) (last : Act M W) (session : Session M W) :
    session.history (acts ++ [last]) = session.history acts ++ (session.after acts).runs last := by
  induction acts generalizing session with
  | nil => exact List.append_nil _
  | cons act acts ih =>
    rw [List.cons_append, history, history, ih, List.append_assoc]
    rfl

end Session

/-! ## Postings -/

/-- What an act makes of the books. Of what does not arm, fail a row or compile, the most that comes
is that the row or the staged body is gone. -/
inductive Posting {M W : Type} : Act M W → Books → List (Interception Recorder) → Books → Prop
  | arm (row : Nat) (method : Handle) (before : Books) :
    Posting (.arm row method) before [] { before with targetRow := some row, staged := none }
  | failure (row : Nat) (before : Books) :
    Posting (.recordFailure row) before [] { before with
      records := before.records ++
        [{ row, success := false, code := [], total := before.count }] }
  | event {act : Act M W} {before after : Books} {runs : List (Interception Recorder)}
      (isEvent : act.IsEvent) (tallies : Tallies before runs after) : Posting act before runs after
  | plain {act : Act M W} {before after : Books} (other : ¬ act.Arms)
      (count_eq : after.count = before.count) (records_eq : after.records = before.records)
      (targetRow : after.targetRow = before.targetRow ∨ after.targetRow = none)
      (staged : after.staged = before.staged ∨ after.staged = none) : Posting act before [] after

namespace Posting

variable {M W : Type} {act : Act M W} {before after : Books} {runs : List (Interception Recorder)}

/-- No act takes a capture back. -/
theorem count_le (posting : Posting act before runs after) : before.count ≤ after.count := by
  cases posting with
  | arm | failure => exact Nat.le_refl _
  | event _ tallies => exact tallies.count_eq ▸ Nat.le_add_right _ _
  | plain _ count_eq => exact Nat.le_of_eq count_eq.symm

/-- Every act keeps the books balanced. An arm and a failure add no success, and the runs of a
compilation are told one by one. -/
theorem balanced (posting : Posting act before runs after) (here : Balanced before) :
    Balanced after := by
  cases posting with
  | arm => exact here.congr rfl rfl
  | failure => exact here.concat rfl rfl rfl
  | event _ tallies => exact (tallies.balanced here).1
  | plain _ count_eq records_eq => exact here.congr count_eq records_eq

/-- Only arming arms a row. -/
theorem targetRow (posting : Posting act before runs after) (other : ¬ act.Arms) :
    after.targetRow = before.targetRow ∨ after.targetRow = none := by
  cases posting with
  | arm => exact absurd trivial other
  | failure => exact .inl rfl
  | event _ tallies => exact .inl tallies.targetRow_eq
  | plain _ _ _ targetRow => exact targetRow

end Posting

/-! ## The last act that armed -/

/-- An act that armed a row and the ones before and after it, none of which is a later such act. -/
structure LastArm {M W : Type} (acts earlier : List (Act M W)) (row : Nat) (method : Handle)
    (later : List (Act M W)) : Prop where
  split : acts = earlier ++ .arm row method :: later
  unarmed : ∀ act ∈ later, ¬ act.Arms

namespace LastArm

variable {M W : Type} {acts earlier later : List (Act M W)} {row : Nat} {method : Handle}

/-- An act that does not arm leaves the row armed last as it is. -/
theorem concat (lastArm : LastArm acts earlier row method later) {act : Act M W}
    (other : ¬ act.Arms) : LastArm (acts ++ [act]) earlier row method (later ++ [act]) := by
  refine ⟨by simp [lastArm.split], fun one mem => ?_⟩
  rcases List.mem_append.mp mem with mem | mem
  · exact lastArm.unarmed one mem
  · exact List.mem_singleton.mp mem ▸ other

/-- A session is the one right after its last arm, gone through the acts behind it. -/
theorem after_eq [ModuleStore M W] [AddressSpace W] [Introspection W] [NativeCode W]
    (lastArm : LastArm acts earlier row method later) (start : Session M W) :
    start.after acts = (start.after (earlier ++ [.arm row method])).after later := by
  rw [lastArm.split, ← Session.after_append, List.append_assoc]
  rfl

end LastArm

/-! ## What an act touches -/

section

variable {M W : Type}

/-- Installing a body changes the output module and nothing that captures look at. -/
theorem install_frame [ModuleStore M W] (row : Nat) (body : MethodBody) (session : Session M W) :
    (session.install row body).2.process.filter = session.process.filter ∧
      (session.install row body).2.process.client = session.process.client := by
  unfold Session.install
  cases session.process.world.output with
  | none => exact ⟨rfl, rfl⟩
  | some output =>
    dsimp only
    cases ModuleStore.replaceBody row body output <;> exact ⟨rfl, rfl⟩

variable [AddressSpace W]

/-- Unhooking idles the session if it comes off, and leaves filter and recorder alone otherwise. -/
theorem unhook_cases (session : Session M W) :
    (session.unhook.1 = .ok () ∧
        session.unhook.2.process.filter = { session.process.filter with targetMethod := 0 } ∧
        session.unhook.2.process.client = session.process.client.idle) ∨
      (∃ fault, session.unhook.1 = .error fault) ∧
        session.unhook.2.process.filter = session.process.filter ∧
        session.unhook.2.process.client = session.process.client := by
  obtain ⟨same_filter, same_client⟩ := Hook.Redirect.remove_frame session.redirect session.process
  unfold Session.unhook
  rcases removed : session.redirect.remove session.process with ⟨result, redirect, process⟩
  rw [removed] at same_filter same_client
  dsimp only at same_filter same_client
  cases result with
  | ok done =>
    refine .inl ⟨rfl, ?_, ?_⟩
    · rw [← same_filter]
      rfl
    · rw [← same_client]
      rfl
  | error fault => exact .inr ⟨⟨fault, rfl⟩, same_filter, same_client⟩

/-- Whether it succeeds or not, hooking leaves nothing armed and changes nothing else that is told.
-/
theorem hook_frame (session : Session M W) :
    session.hook.2.process.filter = { session.process.filter with targetMethod := 0 } ∧
      session.hook.2.process.client = session.process.client.idle :=
  Hook.Redirect.install_frame session.idle.redirect session.idle.process

end

section

variable {M W : Type} [ModuleStore M W] [AddressSpace W] [Introspection W] [NativeCode W]
variable {session : Session M W}

/-- No act installs another callback. -/
theorem callback_act (act : Act M W) (session : Session M W) :
    (session.act act).process.filter.callback = session.process.filter.callback := by
  cases act with
  | hook => exact (congrArg Filter.callback (hook_frame session).1).trans rfl
  | unhook =>
    rcases unhook_cases session with ⟨-, same, -⟩ | ⟨-, same, -⟩ <;>
      exact (congrArg Filter.callback same).trans rfl
  | install row body => exact congrArg Filter.callback (install_frame row body session).1
  | compile call => exact congrArg Wiring.callback (wiring_enter call session.process)
  | sift event =>
    exact congrArg Wiring.callback (leaves_sift steady_wiring event session.process)
  | arm | idle | recordFailure | takeStaged | takeError | meanwhile => rfl

/-- The callback of a session stays the one that it started with. -/
theorem callback_after (acts : List (Act M W)) (session : Session M W) :
    (session.after acts).process.filter.callback = session.process.filter.callback := by
  induction acts generalizing session with
  | nil => rfl
  | cons act acts ih => exact (ih _).trans (callback_act act session)

/-! ## Bodies that were staged last -/

/-- A body that the last claim since a row was armed has staged for it. -/
def StagedSince (start : Session M W) (acts : List (Act M W)) (staged : StagedBody) : Prop :=
  ∃ earlier method later, LastArm acts earlier staged.row method later ∧
    ∃ run request,
      (claims ((start.after (earlier ++ [.arm staged.row method])).history later)).getLast? =
        some run ∧
      run.client.staged = some staged ∧ GatheredFrom run.event (request, staged.body)

/-- An act that arms nothing and in which nothing is claimed makes no difference. -/
theorem StagedSince.concat {start : Session M W} {acts : List (Act M W)} {staged : StagedBody}
    (since : StagedSince start acts staged) {act : Act M W} (other : ¬ act.Arms)
    (unclaimed : claims ((start.after acts).runs act) = []) :
    StagedSince start (acts ++ [act]) staged := by
  obtain ⟨earlier, method, later, lastArm, run, request, last, made⟩ := since
  refine ⟨earlier, method, later ++ [act], lastArm.concat other, run, request, ?_, made⟩
  rw [Session.history_concat, ← lastArm.after_eq, claims_append, unclaimed, List.append_nil]
  exact last

/-! ## Sessions at rest -/

/-- With nothing armed, whatever is compiled goes to the compiler and no further. -/
theorem event_disarmed (disarmed : session.process.filter.targetMethod = 0) {act : Act M W}
    (isEvent : act.IsEvent) :
    (session.act act).process.client = session.process.client ∧
      (session.act act).process.filter = session.process.filter ∧
      (session.act act).process.world.output = session.process.world.output := by
  cases act with
  | compile call =>
    obtain ⟨result, workspace, entered, kept⟩ :=
      enter_disarmed (output_native session.process.world.output) disarmed rfl call
    have same : workspace.output = session.process.world.output := kept
    refine ⟨?_, ?_, ?_⟩
    · exact congrArg (fun result => result.2.client) entered
    · exact congrArg (fun result => result.2.filter) entered
    · exact (congrArg (fun result => result.2.world.output) entered).trans same
  | sift event =>
    have sifted : session.process.sift event = (.forward event, session.process) :=
      siftWithin_disarmed disarmed _ event
    refine ⟨?_, ?_, ?_⟩
    · exact congrArg (fun result => result.2.client) sifted
    · exact congrArg (fun result => result.2.filter) sifted
    · exact congrArg (fun result => result.2.world.output) sifted
  | _ => exact isEvent.elim

/-- What puts a session to rest leaves no method armed. -/
theorem disarmed_of_putsToRest {act : Act M W} (rests : session.PutsToRest act) :
    (session.act act).process.filter.targetMethod = 0 := by
  cases act with
  | hook => exact congrArg Filter.targetMethod (hook_frame session).1
  | idle => rfl
  | unhook =>
    rcases unhook_cases session with ⟨-, same, -⟩ | ⟨⟨fault, failed⟩, -⟩
    · exact congrArg Filter.targetMethod same
    · cases failed.symm.trans rests
  | _ => exact rests.elim

/-- A session at rest comes to rest after any act but an arm. -/
theorem disarmed_act (disarmed : session.process.filter.targetMethod = 0) {act : Act M W}
    (other : ¬ act.Arms) : (session.act act).process.filter.targetMethod = 0 := by
  by_cases isEvent : act.IsEvent
  · exact (congrArg Filter.targetMethod (event_disarmed disarmed isEvent).2.1).trans disarmed
  · cases act with
    | arm => exact absurd trivial other
    | compile | sift => exact absurd trivial isEvent
    | hook => exact congrArg Filter.targetMethod (hook_frame session).1
    | unhook =>
      rcases unhook_cases session with ⟨-, same, -⟩ | ⟨-, same, -⟩
      · exact congrArg Filter.targetMethod same
      · exact (congrArg Filter.targetMethod same).trans disarmed
    | install row body =>
      exact (congrArg Filter.targetMethod (install_frame row body session).1).trans disarmed
    | idle => rfl
    | recordFailure | takeStaged | takeError | meanwhile => exact disarmed

/-- A session stays at rest until the next arm, whatever comes in between. -/
theorem disarmed_after {acts : List (Act M W)} (unarmed : ∀ act ∈ acts, ¬ act.Arms)
    (disarmed : session.process.filter.targetMethod = 0) :
    (session.after acts).process.filter.targetMethod = 0 := by
  induction acts generalizing session with
  | nil => exact disarmed
  | cons act acts ih =>
    obtain ⟨other, unarmed⟩ := List.forall_mem_cons.mp unarmed
    exact ih unarmed (disarmed_act disarmed other)

/-! ## Books after some acts -/

variable [CodeSpace W] {rules : CaptureRules M W}

/-- The runs of the callback in a call or an event tell what it makes of the books. -/
theorem tallies_act (callback_eq : session.process.filter.callback = some (record rules))
    {act : Act M W} (isEvent : act.IsEvent) :
    Tallies session.books (session.runs act) (session.act act).books := by
  cases act with
  | compile call => exact tallies_enter callback_eq call
  | sift event => exact tallies_sift callback_eq event
  | _ => exact isEvent.elim

/-- Every act of a session is one of the postings. This is the only place where the acts are looked
at one by one; the laws of the books are proved of postings. -/
theorem posting_act (act : Act M W)
    (callback_eq : session.process.filter.callback = some (record rules)) :
    Posting act session.books (session.runs act) (session.act act).books := by
  have kept {act : Act M W} (other : ¬ act.Arms) {after : Session M W}
      (same : after.process.client = session.process.client) :
      Posting act session.books [] after.books := by
    have same_books : after.books = session.books := congrArg Recorder.books same
    rw [same_books]
    exact .plain other rfl rfl (.inl rfl) (.inl rfl)
  have idled {act : Act M W} (other : ¬ act.Arms) {after : Session M W}
      (same : after.process.client = session.process.client.idle) :
      Posting act session.books [] after.books := by
    have same_books : after.books = session.process.client.idle.books :=
      congrArg Recorder.books same
    rw [same_books]
    exact .plain other rfl rfl (.inr rfl) (.inl rfl)
  cases act with
  | arm row method => exact .arm row method session.books
  | recordFailure row => exact .failure row session.books
  | compile | sift => exact .event trivial (tallies_act callback_eq trivial)
  | hook => exact idled id (hook_frame session).2
  | idle => exact idled id rfl
  | unhook =>
    rcases unhook_cases session with ⟨-, -, same⟩ | ⟨-, -, same⟩
    · exact idled id same
    · exact kept id same
  | takeStaged => exact .plain id rfl rfl (.inl rfl) (.inr rfl)
  | install row body => exact kept id (install_frame row body session).2
  | takeError | meanwhile => exact kept id rfl

/-- The books are balanced after any acts, if they were before: the induction is on the acts, with
the callback kept by each. -/
theorem balanced_after (acts : List (Act M W))
    (callback_eq : session.process.filter.callback = some (record rules))
    (here : Balanced session.books) : Balanced (session.after acts).books := by
  induction acts generalizing session with
  | nil => exact here
  | cons act acts ih =>
    exact ih ((callback_act act session).trans callback_eq)
      ((posting_act act callback_eq).balanced here)

/-- The row that is armed is that of the last act that armed one. -/
theorem armed_after (callback_eq : session.process.filter.callback = some (record rules))
    (fresh : session.books.targetRow = none) {acts : List (Act M W)} {row : Nat}
    (armed : (session.after acts).books.targetRow = some row) :
    ∃ earlier method later, LastArm acts earlier row method later := by
  induction acts using List.reverseRecOn with
  | nil => cases fresh.symm.trans armed
  | append_singleton acts act ih =>
    have posting := posting_act act ((callback_after acts session).trans callback_eq)
    rw [Session.after_append] at armed
    by_cases arms : act.Arms
    · cases act with
      | arm other method =>
        cases armed
        exact ⟨acts, method, [], rfl, fun _ mem => nomatch mem⟩
      | _ => exact arms.elim
    · rcases posting.targetRow arms with same | gone
      · obtain ⟨earlier, method, later, lastArm⟩ := ih (same.symm.trans armed)
        exact ⟨earlier, method, later ++ [act], lastArm.concat arms⟩
      · cases gone.symm.trans armed

/-- A staged body is the one of the last claim since its row was armed. Whatever takes the row away
or arms another one takes the body away with it. -/
theorem staged_after (callback_eq : session.process.filter.callback = some (record rules))
    (fresh : session.books.targetRow = none) (empty : session.books.staged = none)
    {acts : List (Act M W)} {staged : StagedBody}
    (here : (session.after acts).books.staged = some staged) : StagedSince session acts staged := by
  induction acts using List.reverseRecOn with
  | nil => cases empty.symm.trans here
  | append_singleton acts act ih =>
    have posting := posting_act act ((callback_after acts session).trans callback_eq)
    rw [Session.after_append] at here
    change ((session.after acts).act act).books.staged = some staged at here
    generalize books_eq : (session.after acts).books = before at posting ih
    generalize runs_eq : (session.after acts).runs act = runs at posting
    generalize ((session.after acts).act act).books = after at posting here
    -- only an arm, an interception or a failure touches what is staged
    cases posting with
    | arm => cases here
    | failure => exact (ih here).concat id (congrArg claims runs_eq)
    | plain other _ _ _ kept =>
      rcases kept with same | gone
      · exact (ih (same.symm.trans here)).concat other (congrArg claims runs_eq)
      · cases gone.symm.trans here
    | event isEvent tallies =>
      have other : ¬ act.Arms := by
        cases act <;> first | exact id | exact isEvent.elim
      -- an event without claims leaves what is staged, one with claims stages the last of them
      rcases tallies.staged_eq with
        ⟨unclaimed, same⟩ | ⟨run, row, request, body, last, armed, gathered, made, staged_eq⟩
      · refine (ih (same.symm.trans here)).concat other ?_
        rw [runs_eq]
        exact List.getLast?_eq_none_iff.mp unclaimed
      · obtain rfl : staged = ⟨row, body⟩ :=
          Option.some.inj (here.symm.trans (staged_eq.trans made))
        obtain ⟨earlier, method, later, lastArm⟩ :=
          armed_after callback_eq fresh ((congrArg Books.targetRow books_eq).trans armed)
        refine ⟨earlier, method, later ++ [act], lastArm.concat other, run, request, ?_, made,
          gathered⟩
        rw [Session.history_concat, ← lastArm.after_eq, claims_append, runs_eq,
          List.getLast?_append, last]
        rfl

/-- What is compiled leaves the output module to the resolver of the recorder. -/
theorem output_event (callback_eq : session.process.filter.callback = some (record rules))
    (answers : ∀ opcode token,
      KeepsOutput session.process.world.output (rules.resolver opcode token))
    {act : Act M W} (isEvent : act.IsEvent) :
    (session.act act).process.world.output = session.process.world.output := by
  have keeping : Keeping (HasOutput session.process.world.output) session.process := by
    refine ⟨rfl, fun callback installed event => ?_⟩
    cases callback_eq.symm.trans installed
    exact keeps_record (output_placing _) (output_native _)
      (fun opcode token => keeps_of_keepsOutput (answers opcode token)) event
  cases act with
  | compile call =>
    exact (keeping_enter (output_native _) (output_answering _) call _ keeping).here
  | sift event =>
    exact (keeping_siftWithin (output_native _) (output_answering _) _ event _ keeping).here
  | _ => exact isEvent.elim

/-- Whatever a session is asked for and whatever is compiled in between, its books are right: the
count is that of the successes and never falls, each record has the total up to it, and what is
staged is the last claim for the row armed last. A call or an event adds the entries of its claims
and nothing else, and changes nothing at all from when the session was put to rest until a row is
armed. -/
theorem session_accounts (redirect : Hook.Redirect) (moduleHandle : Handle)
    (rules : CaptureRules M W) (process : Process Recorder (Workspace M W))
    (acts : List (Act M W)) (act : Act M W) :
    let start := Session.start redirect moduleHandle rules process
    let session := start.after acts
    let next := session.act act
    (Balanced session.books ∧ session.books.count ≤ next.books.count ∧
      ∀ run ∈ session.runs act, Balanced run.client.books) ∧
    (∀ staged, session.books.staged = some staged → StagedSince start acts staged) ∧
    (act.IsEvent → Tallies session.books (session.runs act) next.books ∧
      ((∀ opcode token,
          KeepsOutput session.process.world.output (rules.resolver opcode token)) →
        next.process.world.output = session.process.world.output)) ∧
    (∀ earlier rest later, acts = earlier ++ rest :: later →
      (start.after earlier).PutsToRest rest → (∀ one ∈ later, ¬ one.Arms) → act.IsEvent →
        next.books = session.books ∧
          next.process.filter.stashed = session.process.filter.stashed ∧
          next.process.world.output = session.process.world.output) := by
  intro start session next
  have callback_eq : session.process.filter.callback = some (record rules) :=
    callback_after acts start
  have balanced : Balanced session.books :=
    balanced_after acts rfl balanced_fresh
  have posting := posting_act act callback_eq
  refine ⟨⟨balanced, posting.count_le, fun run mem => ?_⟩, ?_, ?_, ?_⟩
  · by_cases isEvent : act.IsEvent
    · exact ((tallies_act callback_eq isEvent).balanced balanced).2 run mem
    · rw [Session.runs_of_not_event isEvent] at mem
      cases mem
  · exact fun staged => staged_after rfl rfl rfl
  · exact fun isEvent =>
      ⟨tallies_act callback_eq isEvent, fun answers => output_event callback_eq answers isEvent⟩
  · rintro earlier rest later rfl rests unarmed isEvent
    have settled := disarmed_after unarmed (disarmed_of_putsToRest rests)
    have disarmed : session.process.filter.targetMethod = 0 := by
      change (start.after (earlier ++ rest :: later)).process.filter.targetMethod = 0
      rw [Session.after_append]
      exact settled
    obtain ⟨same_client, same_filter, same_output⟩ := event_disarmed disarmed isEvent
    exact ⟨congrArg Recorder.books same_client, congrArg Filter.stashed same_filter, same_output⟩

end

/-! ## A capture within one that fails -/

section

open Rehearsal

/-- A call that has the method at `0x30` compiled from some code. -/
def compiling (code : Bytes) : CompileCall where
  routine := .compileMethod
  thread := 1
  this := 0x60
  jitInfo := 0x70
  info := some {
    methodHandle := 0x30
    moduleHandle := 0x10
    code := some code
    codeSize := UInt32.ofNat code.length
    maxStack := 8
    clauseCount := 0
    options := 0x10
    localsCount := 0
    locals := none }
  flags := 0
  nativeEntry := 0
  nativeSize := 0

/-- Rules by which a token has the method compiled from code without one and is then refused. -/
def refusing : CaptureRules TableModule World where
  resolver _ _ := .compile (compiling [0x2A]) fun _ =>
    .done (.error (.fault (.other "no token")))
  flavor := .v45
  architecture := .x64

def tableSlot : Slot := { owner := 1, layout := .v40, replaced := 0x5000 }

def tableRedirect : Hook.Redirect where
  kind := .table
  site := { address := 0, found := [], redirected := [], routine := 0x5000 }
  slot := tableSlot
  installed := true

def tableProcess : Process Recorder (Workspace TableModule World) :=
  { Process.idle .fresh ⟨some .empty, .ofMemory ⟨⟨[]⟩, [], []⟩⟩ with methodSlot := some tableSlot }

def refusingSession : Session TableModule World :=
  .start tableRedirect 0x10 refusing tableProcess

/-- The method is compiled from code that has a token. -/
def nestedActs : List (Act TableModule World) :=
  [.arm 2 0x20, .idle, .arm 3 0x30, .compile (compiling [0x28, 1, 0, 0, 6, 0x2A])]

/-- The capture within counts and is staged, the one around it is not; and nothing more comes of the
same call once the session idles. -/
theorem session_accounts_nested :
    (refusingSession.after nestedActs).books.count = 1 ∧
      (refusingSession.after nestedActs).process.filter.stashed.isSome ∧
      Balanced (refusingSession.after nestedActs).books ∧
      (∃ staged, staged.row = 3 ∧ StagedSince refusingSession nestedActs staged) ∧
      ((refusingSession.after (nestedActs ++ [.idle])).act
        (.compile (compiling [0x2A]))).books.count = 1 := by
  obtain ⟨⟨balanced, -⟩, staged, -⟩ :=
    session_accounts tableRedirect 0x10 refusing tableProcess nestedActs .idle
  obtain ⟨-, -, -, quiet⟩ := session_accounts tableRedirect 0x10 refusing tableProcess
    (nestedActs ++ [.idle]) (.compile (compiling [0x2A]))
  have unchanged := (quiet nestedActs .idle [] rfl trivial (fun _ mem => nomatch mem) trivial).1
  refine ⟨rfl, rfl, balanced, ⟨⟨3, _⟩, rfl, staged _ rfl⟩, ?_⟩
  exact congrArg Books.count unchanged

end

end CilCapture.Capture
