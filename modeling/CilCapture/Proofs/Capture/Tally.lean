import CilCapture.Proofs.Capture.Runs
import CilCapture.Proofs.Compile.Coupling

/-!
# Books and runs

What a call makes of a recorder's books is told by the runs of the callback in it, in the order of
their ends: a run that claims its call makes one entry, and no other run makes any (`Tallies`). So
it is for every call, every event and every errand, with whatever is nested in it and whatever that
comes to (`tallies_enter`, `tallies_sift`, `tallies_perform`). Balanced books stay balanced
(`Tallies.balanced`).

The entries are told by the journal that `Journal` attaches to a process, so that a statement about
what happened in a call becomes one about its last state. `Tells` is kept through a whole call by
the lemmas of `Runs`; only a run that claims changes the books, and it changes them by
`Books.credit`.

That the books balance is not part of this: it is derived from `Tallies` by induction on the runs,
and holds from any books that were balanced before.
-/

namespace CilCapture.Capture

open Body Compile Engine

/-! ## Entries -/

/-- The entry of a successful capture. -/
def Books.credit (row : Nat) (code : Bytes) (body : MethodBody) (books : Books) : Books :=
  { books with
    count := books.count + 1
    records := books.records ++ [{ row, success := true, code, total := books.count + 1 }]
    staged := some { row, body } }

/-- The entry of a run that claimed the call: the armed row gets a body that was gathered from the
event. -/
def Credits (event : CompileEvent) (before after : Books) : Prop :=
  ∃ row request body, before.targetRow = some row ∧ GatheredFrom event (request, body) ∧
    after = before.credit row request.code body

/-- Books before and after some runs of the callback, told in the order of their ends. -/
inductive Tallies : Books → List (Interception Recorder) → Books → Prop
  | nil (books : Books) : Tallies books [] books
  | claim {before after : Books} {run : Interception Recorder} {runs : List (Interception Recorder)}
      (verdict_eq : run.verdict = .claim) (credits : Credits run.event before run.client.books)
      (rest : Tallies run.client.books runs after) : Tallies before (run :: runs) after
  | other {before after : Books} {run : Interception Recorder} {runs : List (Interception Recorder)}
      (verdict_ne : run.verdict ≠ .claim) (books_eq : run.client.books = before)
      (rest : Tallies before runs after) : Tallies before (run :: runs) after

/-! ## Balance -/

/-- The successful captures among some records. -/
def successes (records : List CaptureRecord) : Nat := records.countP (·.success)

/-- The failures of a row among some records. -/
def failures (row : Nat) (records : List CaptureRecord) : Nat :=
  records.countP fun record => record.row == row && !record.success

/-- Books that count the successes, with the total of each record up to it. -/
structure Balanced (books : Books) : Prop where
  count_eq : books.count = successes books.records
  total_eq : ∀ earlier record later, books.records = earlier ++ record :: later →
    record.total = successes (earlier ++ [record])

/-- A further record adds a success just when it is one. -/
theorem successes_concat (records : List CaptureRecord) (record : CaptureRecord) :
    successes (records ++ [record]) = successes records + if record.success then 1 else 0 := by
  simp only [successes, List.countP_append, List.countP_singleton]

/-- A record that is added has the count that the books have then. -/
theorem Balanced.concat {books after : Books} (balanced : Balanced books) {record : CaptureRecord}
    (records_eq : after.records = books.records ++ [record])
    (count_eq : after.count = books.count + if record.success then 1 else 0)
    (total_eq : record.total = after.count) : Balanced after := by
  have counted : after.count = successes after.records := by
    rw [records_eq, successes_concat, count_eq, balanced.count_eq]
  refine ⟨counted, fun earlier one later split => ?_⟩
  rw [records_eq] at split counted
  rcases List.append_eq_append_iff.mp split with ⟨middle, earlier_eq, tail⟩ | ⟨middle, same, tail⟩
  · -- The record is the last one, which is the one that was added.
    obtain ⟨rfl, last, rfl⟩ : middle = [] ∧ one = record ∧ later = [] := by
      cases middle with
      | nil => simpa [eq_comm] using tail
      | cons head rest => simp at tail
    subst last
    rw [earlier_eq, List.append_nil, total_eq, counted]
  · cases middle with
    | nil =>
      obtain ⟨rfl, rfl⟩ : one = record ∧ later = [] := by simpa using tail
      rw [← List.append_nil earlier, ← same, total_eq, counted]
    | cons head rest =>
      obtain ⟨rfl, -⟩ : one = head ∧ later = rest ++ [record] := by simpa using tail
      exact balanced.total_eq earlier one rest same

/-- Empty books are balanced. -/
theorem balanced_fresh : Balanced Recorder.fresh.books :=
  ⟨rfl, fun earlier record later split => by
    have := congrArg List.length split
    simp [Recorder.books, Recorder.fresh] at this⟩

/-- An entry of a success carries the new count as its total. -/
theorem Balanced.credit {books : Books} (balanced : Balanced books) (row : Nat) (code : Bytes)
    (body : MethodBody) : Balanced (books.credit row code body) :=
  balanced.concat rfl rfl rfl

/-- Balance is a matter of count and records. -/
theorem Balanced.congr {books after : Books} (balanced : Balanced books)
    (count_eq : after.count = books.count) (records_eq : after.records = books.records) :
    Balanced after :=
  ⟨by rw [count_eq, records_eq, balanced.count_eq], by rw [records_eq]; exact balanced.total_eq⟩

/-! ## What follows from the runs -/

namespace Tallies

variable {before middle after : Books} {runs more : List (Interception Recorder)}

/-- Runs that are told in two parts are told as a whole. -/
theorem trans (first : Tallies before runs middle) (second : Tallies middle more after) :
    Tallies before (runs ++ more) after := by
  induction first with
  | nil => exact second
  | claim verdict_eq credits _ ih => exact .claim verdict_eq credits (ih second)
  | other verdict_ne books_eq _ ih => exact .other verdict_ne books_eq (ih second)

/-- No run changes the row that is armed. -/
theorem targetRow_eq (tallies : Tallies before runs after) :
    after.targetRow = before.targetRow := by
  induction tallies with
  | nil => rfl
  | claim _ credits _ ih =>
    obtain ⟨row, request, body, -, -, entry⟩ := credits
    rw [ih, entry]
    rfl
  | other _ _ _ ih => exact ih

/-- The count is raised by one for each claim. -/
theorem count_eq (tallies : Tallies before runs after) :
    after.count = before.count + (claims runs).length := by
  induction tallies with
  | nil => rfl
  | claim verdict_eq credits _ ih =>
    obtain ⟨row, request, body, -, -, entry⟩ := credits
    rw [ih, entry, claims_cons_of_claim verdict_eq, List.length_cons]
    exact Nat.add_right_comm _ _ _
  | other verdict_ne _ _ ih => rw [ih, claims_cons_of_ne verdict_ne]

/-- No run makes a record of a failure. -/
theorem failures_eq (tallies : Tallies before runs after) (row : Nat) :
    failures row after.records = failures row before.records := by
  induction tallies with
  | nil => rfl
  | claim _ credits _ ih =>
    obtain ⟨row', request, body, -, -, entry⟩ := credits
    rw [ih, entry]
    simp [Books.credit, failures]
  | other _ _ _ ih => exact ih

/-- Books are balanced at the end of each run as they are after all. -/
theorem balanced (tallies : Tallies before runs after) (here : Balanced before) :
    Balanced after ∧ ∀ run ∈ runs, Balanced run.client.books := by
  induction tallies with
  | nil => exact ⟨here, fun _ mem => nomatch mem⟩
  | @claim before after run runs _ credits _ ih =>
    obtain ⟨row, request, body, -, -, entry⟩ := credits
    have there : Balanced run.client.books := by
      rw [entry]
      exact here.credit row request.code body
    exact ⟨(ih there).1, List.forall_mem_cons.mpr ⟨there, (ih there).2⟩⟩
  | @other before after run runs _ books_eq _ ih =>
    have there : Balanced run.client.books := by
      rw [books_eq]
      exact here
    exact ⟨(ih here).1, List.forall_mem_cons.mpr ⟨there, (ih here).2⟩⟩

/-- What is staged in the end was staged by the last claim, for the armed row and from its event; if
there was none, it was staged before. -/
theorem staged_eq (tallies : Tallies before runs after) :
    ((claims runs).getLast? = none ∧ after.staged = before.staged) ∨
      ∃ run row request body, (claims runs).getLast? = some run ∧
        before.targetRow = some row ∧ GatheredFrom run.event (request, body) ∧
        run.client.staged = some ⟨row, body⟩ ∧ after.staged = run.client.staged := by
  induction tallies with
  | nil => exact .inl ⟨rfl, rfl⟩
  | @claim before after run runs verdict_eq credits _ ih =>
    obtain ⟨row, request, body, armed, gathered, entry⟩ := credits
    rw [claims_cons_of_claim verdict_eq, List.getLast?_cons]
    refine .inr ?_
    rcases ih with ⟨last, staged_eq⟩ | ⟨final, row', request', body', last, armed', rest⟩
    · rw [last]
      exact ⟨run, row, request, body, rfl, armed, gathered, congrArg Books.staged entry, staged_eq⟩
    · rw [last]
      rw [entry] at armed'
      exact ⟨final, row', request', body', rfl, armed', rest⟩
  | other verdict_ne _ _ ih =>
    rw [claims_cons_of_ne verdict_ne]
    exact ih

/-- With nothing staged before, what is staged in the end is for the armed row. -/
theorem row_of_staged (tallies : Tallies before runs after) (none_staged : before.staged = none)
    {row : Nat} (armed : before.targetRow = some row) {staged : StagedBody}
    (staged_eq : after.staged = some staged) : staged.row = row := by
  rcases tallies.staged_eq with ⟨-, kept⟩ | ⟨run, row', request, body, -, armed', -, left, kept⟩
  · cases staged_eq.symm.trans (kept.trans none_staged)
  · cases armed.symm.trans armed'
    cases staged_eq.symm.trans (kept.trans left)
    rfl

end Tallies

/-! ## Books and journals -/

variable {M W α : Type}

/-- A process whose recorder keeps a journal that tells its books since they were `start`. -/
structure Tells [NativeCode W] [CodeSpace W] (rules : CaptureRules M W) (start : Books)
    (process : Journaled M W) : Prop where
  callback_eq : process.filter.callback = some (Callback.journaled (record rules))
  tallies : Tallies start process.client.2 process.client.1.books

section

variable [NativeCode W] [CodeSpace W] {rules : CaptureRules M W} {start : Books}

/-- What a journal tells of the books does not depend on the workspace, the log or the rest of the
recorder. -/
theorem tells_stable : Stable (fun _ => True) (Tells rules start) where
  here _ := trivial
  withWorld tells _ _ := ⟨tells.callback_eq, tells.tallies⟩
  withRecorder tells recorder same := by
    refine ⟨tells.callback_eq, ?_⟩
    change Tallies start _ recorder.books
    rw [same]
    exact tells.tallies
  report tells _ := ⟨tells.callback_eq, tells.tallies⟩

/-- A run that does not claim the call is entered without an entry in the books. -/
theorem Tells.entered_of_ne {process : Journaled M W} (tells : Tells rules start process)
    (event : CompileEvent) {verdict : Verdict} (other : verdict ≠ .claim) :
    Tells rules start (entered event verdict process) :=
  ⟨tells.callback_eq, tells.tallies.trans (.other other rfl (.nil _))⟩

/-- Whatever a run of the callback comes to, the journal tells the books. -/
theorem tells_run {enter : CompileCall → Journaled M W → Int32 × Journaled M W}
    {sift : CompileEvent → Journaled M W → FilterOutcome × Journaled M W}
    (enters : ∀ call process, Tells rules start process → Tells rules start (enter call process).2)
    (event : CompileEvent) {process : Journaled M W} (tells : Tells rules start process) :
    Tells rules start ((Callback.journaled (record rules) event).run enter sift process).2 := by
  cases armed : process.client.1.targetRow with
  | none =>
    have ran : ((Callback.journaled (record rules) event).run enter sift process).2 =
        entered event (.forward event) process := by
      rw [Callback.journaled, run_andThen, record, Response.beside, Response.run]
      dsimp only
      rw [armed]
      rfl
    rw [ran]
    exact tells.entered_of_ne event (by simp)
  | some row =>
    obtain ⟨result, middle, ran, captured⟩ := run_journaled tells_stable
      (fun _ _ _ => trivial) ⟨fun _ _ _ => trivial, fun _ _ _ _ _ => trivial⟩ enters
      (fun opcode token => Errand.keeps_true _) armed tells event
    rw [ran]
    cases result with
    | ok done =>
      obtain ⟨last, ⟨request, body⟩, told, -, gathered, rfl⟩ := captured
      have same_row : last.client.1.books.targetRow = process.client.1.books.targetRow :=
        told.tallies.targetRow_eq.trans tells.tallies.targetRow_eq.symm
      exact ⟨told.callback_eq, told.tallies.trans
        (.claim rfl ⟨row, request, body, same_row.trans armed, gathered, rfl⟩ (.nil _))⟩
    | error abort =>
      refine Tells.entered_of_ne captured event ?_
      cases abort <;> simp [captureVerdict]

variable {process : Process Recorder (Workspace M W)}

/-- A journal that is begun tells the books from there on. -/
theorem tells_journaled (callback_eq : process.filter.callback = some (record rules)) :
    Tells rules process.client.books (process.journaled []) := by
  refine ⟨?_, .nil _⟩
  change process.filter.callback.map Callback.journaled = _
  rw [callback_eq]
  rfl

/-- The runs of the callback in a step tell what it makes of the books, if it keeps the journal. -/
theorem tallies_of_tracks
    {step : Process Recorder (Workspace M W) → α × Process Recorder (Workspace M W)}
    {step' : Journaled M W → α × Journaled M W} (tracks : Tracks step step')
    (keeps : ∀ start process, Tells rules start process → Tells rules start (step' process).2)
    (callback_eq : process.filter.callback = some (record rules)) :
    Tallies process.client.books (process.runsIn step') (step process).2.client.books := by
  have kept := (keeps _ _ (tells_journaled callback_eq)).tallies
  rw [tracks.runsIn] at kept
  exact kept

variable [Introspection W]

/-- Nothing that the entry points do beside running the callback touches books or journal. -/
theorem coupling_tells : Coupling (fun _ => True) (Alone (Tells rules start)) where
  entrance _ _ _ := nofun
  depth _ := nofun
  isTarget := by
    intro _ _ _ request _ process variants tells
    refine agree_alone.mpr ?_
    unfold Process.isTarget
    dsimp only
    split
    next => exact tells
    next => split <;> exact ⟨tells.callback_eq, tells.tallies⟩
  callback := by
    intro process variants tells
    refine ⟨process.filter.callback, nofun, ?_⟩
    rw [Tells.callback_eq tells]
    refine .some fun sift sift' sifts enters call admitted layout process variants tells => ?_
    refine ⟨agree_alone.mpr (tells_run (fun call process tells => ?_) _ tells), fun _ _ => trivial⟩
    exact agree_alone.mp (enters call trivial process Empty.elim tells)
  begins _ _ tells := ⟨tells.callback_eq, tells.tallies⟩
  ends _ _ tells := ⟨tells.callback_eq, tells.tallies⟩
  stash _ _ _ tells := ⟨tells.callback_eq, tells.tallies⟩
  passOn _ _ _ _ _ tells := agree_alone.mpr ⟨tells.callback_eq, tells.tallies⟩

/-- The runs in an entry tell what becomes of the books. -/
theorem tallies_enter (callback_eq : process.filter.callback = some (record rules))
    (call : CompileCall) :
    Tallies process.client.books (process.runsIn (Process.enter call))
      (process.enter call).2.client.books :=
  tallies_of_tracks (tracks_enter call) (fun _ process tells => agree_alone.mp
    (couples_enter coupling_tells trivial process Empty.elim tells)) callback_eq

/-- The runs in a filtering tell what becomes of the books. -/
theorem tallies_sift (callback_eq : process.filter.callback = some (record rules))
    (event : CompileEvent) :
    Tallies process.client.books (process.runsIn (Process.sift event))
      (process.sift event).2.client.books :=
  tallies_of_tracks (tracks_sift event) (fun _ process tells => agree_alone.mp
    ((couples_sift coupling_tells).event event process Empty.elim tells)) callback_eq

/-- A journal that tells the books still does so after an errand with calls in it. -/
theorem tells_perform {ε : Type} (errand : Errand ε (Workspace M W) α) {process : Journaled M W}
    (tells : Tells rules start process) :
    Tells rules start (finalState (Process.perform errand process)) := by
  induction errand generalizing process with
  | done result => cases result <;> exact tells
  | observe next ih => exact ih _ tells
  | store workspace next ih =>
    exact @ih { process with world := workspace } ⟨tells.callback_eq, tells.tallies⟩
  | compile call next ih =>
    exact ih _ (agree_alone.mp (couples_enter coupling_tells trivial process Empty.elim tells))

/-- The runs in an errand tell what becomes of the books. -/
theorem tallies_perform {ε : Type} (errand : Errand ε (Workspace M W) α)
    (process : Process Recorder (Workspace M W))
    (callback_eq : process.filter.callback = some (record rules)) :
    Tallies process.client.books (process.interceptions errand)
      (finalState (Process.perform errand process)).client.books := by
  have kept := (tells_perform errand (tells_journaled callback_eq)).tallies
  rw [finalState_perform_journaled] at kept
  exact kept

end

end CilCapture.Capture
