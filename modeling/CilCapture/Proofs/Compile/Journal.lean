import CilCapture.Proofs.Compile.Entry
import CilCapture.Proofs.Outcome

/-!
# A journal of interceptions

What the callback did in the course of an errand, told by the same process with a callback that
keeps a journal beside its state: one entry for each time it ran to its end, with the event, the
verdict and the state that it left. The journal is only watched, never used, so the process without
it does the same (`perform_journaled`).

The proof carries the journal along as something beside the callback's state (`Response.beside`): a
response that does not look at it comes to the same whatever it holds. `Tracks` says this of the
steps of a process, and goes through responses, filtering and entries in the same order as they are
defined.

The order of the entries is that of the ends of the runs. A run that is nested in another one ends
first and stands before it.
-/

namespace CilCapture.Compile

open Engine

variable {C W J α β : Type}

/-! ## Keeping a journal -/

/-- A run of the callback. -/
structure Interception (C : Type) where
  event : CompileEvent
  verdict : Verdict
  /-- The callback's state when it ended. -/
  client : C
  deriving DecidableEq, Repr

/-- The runs of the callback that claimed the call. -/
def claims (journal : List (Interception C)) : List (Interception C) :=
  journal.filter (·.verdict = .claim)

/-- The claims of a journal in two parts are those of the parts. -/
theorem claims_append (journal later : List (Interception C)) :
    claims (journal ++ later) = claims journal ++ claims later :=
  List.filter_append _ _

/-- A further run is a further claim just when it claimed the call. -/
theorem claims_concat (journal : List (Interception C)) (run : Interception C) :
    claims (journal ++ [run]) =
      if run.verdict = .claim then claims journal ++ [run] else claims journal := by
  unfold claims
  rw [List.filter_append]
  split <;> simp [*]

/-- A run that claimed comes before the claims behind it. -/
theorem claims_cons_of_claim {run : Interception C} (claimed : run.verdict = .claim)
    (journal : List (Interception C)) : claims (run :: journal) = run :: claims journal :=
  List.filter_cons_of_pos (decide_eq_true claimed)

/-- A run that did not claim is left out. -/
theorem claims_cons_of_ne {run : Interception C} (other : run.verdict ≠ .claim)
    (journal : List (Interception C)) : claims (run :: journal) = claims journal :=
  List.filter_cons_of_neg (by simp [other])

/-- Whether a callback failed or broke down. -/
def Verdict.IsFailure : Verdict → Prop
  | .fail _ | .breakdown => True
  | .claim | .forward _ => False

/-- What a callback does, with something beside its state that it does not touch. -/
def Response.beside : Response C W α → Response (C × J) W α
  | .finish value => .finish value
  | .observe next => .observe fun (client, _) world => (next client world).beside
  | .countDepth next => .countDepth fun depth => (next depth).beside
  | .store client world next =>
    .observe fun (_, other) _ => .store (client, other) world next.beside
  | .report notice next => .report notice next.beside
  | .arm method next => .arm method next.beside
  | .compile call next => .compile call fun result => (next result).beside
  | .sift event next => .sift event fun outcome => (next outcome).beside

/-- Enters a run of the callback in the journal. -/
def noteRun (event : CompileEvent) (verdict : Verdict) :
    Response (C × List (Interception C)) W Verdict :=
  .observe fun (client, journal) world =>
    .store (client, journal ++ [⟨event, verdict, client⟩]) world (.finish verdict)

/-- The callback that keeps a journal of itself. -/
def Callback.journaled (callback : Callback C W) : Callback (C × List (Interception C)) W :=
  fun event => (callback event).beside.andThen (noteRun event)

namespace Process

/-- The process with a journal beside the callback's state. -/
def journaled (process : Process C W) (journal : List (Interception C)) :
    Process (C × List (Interception C)) W where
  filter :=
    { resolver := process.filter.resolver
      targetModule := process.filter.targetModule
      targetMethod := process.filter.targetMethod
      callback := process.filter.callback.map Callback.journaled
      depth := process.filter.depth
      stashed := process.filter.stashed }
  methodSlot := process.methodSlot
  compSlot := process.compSlot
  sessionHeld := process.sessionHeld
  client := (process.client, journal)
  world := process.world
  notices := process.notices

/-- The runs of the callback in the course of a step, in the order of their ends. -/
def runsIn (step : Process (C × List (Interception C)) W →
    β × Process (C × List (Interception C)) W) (process : Process C W) : List (Interception C) :=
  (step (process.journaled [])).2.client.2

variable [Introspection W] [NativeCode W]

/-- The runs of the callback in the course of an errand, in the order of their ends. -/
def interceptions {ε : Type} (errand : Errand ε W α) (process : Process C W) :
    List (Interception C) :=
  match perform errand (process.journaled []) with
  | .ok _ final => final.client.2
  | .error _ final => final.client.2

end Process

/-! ## One response after another -/

/-- A sequence beside something else is the sequence of its parts beside it. -/
theorem beside_andThen (response : Response C W α) (next : α → Response C W β) :
    (response.andThen next).beside (J := J) =
      response.beside.andThen fun value => (next value).beside := by
  induction response with
  | finish value => rfl
  | observe rest ih =>
    simp only [Response.andThen, Response.beside, ih]
  | countDepth rest ih => simp only [Response.andThen, Response.beside, ih]
  | store client world rest ih => simp only [Response.andThen, Response.beside, ih]
  | report notice rest ih => simp only [Response.andThen, Response.beside, ih]
  | arm method rest ih => simp only [Response.andThen, Response.beside, ih]
  | compile call rest ih => simp only [Response.andThen, Response.beside, ih]
  | sift event rest ih => simp only [Response.andThen, Response.beside, ih]

/-- Nothing follows a response that is followed by its own value. -/
theorem andThen_finish (response : Response C W α) : response.andThen .finish = response := by
  induction response with
  | finish value => rfl
  | observe rest ih => simp only [Response.andThen, ih]
  | countDepth rest ih => simp only [Response.andThen, ih]
  | store client world rest ih => simp only [Response.andThen, ih]
  | report notice rest ih => simp only [Response.andThen, ih]
  | arm method rest ih => simp only [Response.andThen, ih]
  | compile call rest ih => simp only [Response.andThen, ih]
  | sift event rest ih => simp only [Response.andThen, ih]

/-- What follows a response may be told in one piece or in two. -/
theorem andThen_assoc {γ : Type} (response : Response C W α) (next : α → Response C W β)
    (after : β → Response C W γ) :
    (response.andThen next).andThen after =
      response.andThen fun value => (next value).andThen after := by
  induction response with
  | finish value => rfl
  | observe rest ih => simp only [Response.andThen, ih]
  | countDepth rest ih => simp only [Response.andThen, ih]
  | store client world rest ih => simp only [Response.andThen, ih]
  | report notice rest ih => simp only [Response.andThen, ih]
  | arm method rest ih => simp only [Response.andThen, ih]
  | compile call rest ih => simp only [Response.andThen, ih]
  | sift event rest ih => simp only [Response.andThen, ih]

instance : LawfulMonad (Response C W) :=
  .mk' _ andThen_finish (fun _ _ => rfl) andThen_assoc

/-- A response goes on from where the one before it ended, unless that broke down. -/
theorem run_andThen {enter : CompileCall → Process C W → Int32 × Process C W}
    {sift : CompileEvent → Process C W → FilterOutcome × Process C W}
    (response : Response C W α) (next : α → Response C W β) (process : Process C W) :
    (response.andThen next).run enter sift process =
      match response.run enter sift process with
      | (some value, process) => (next value).run enter sift process
      | (none, process) => (none, process) := by
  induction response generalizing process with
  | finish value => rfl
  | observe rest ih => exact ih _ _ _
  | countDepth rest ih => exact ih _ _
  | store client world rest ih => exact ih _
  | report notice rest ih => exact ih _
  | arm method rest ih => exact ih _
  | compile call rest ih => exact ih _ _
  | sift event rest ih =>
    rw [Response.andThen, Response.run, Response.run]
    split
    next => rfl
    next => exact ih _ _

/-! ## The journal changes nothing -/

/-- A step that comes to the same with a journal as another does without, but for the journal. -/
def Tracks (step : Process C W → β × Process C W)
    (journaled : Process (C × List (Interception C)) W →
      β × Process (C × List (Interception C)) W) : Prop :=
  ∀ process journal, ∃ journal', journaled (process.journaled journal) =
    ((step process).1, (step process).2.journaled journal')

/-- With an empty journal in the beginning, it is the journal of the step in the end. -/
theorem Tracks.runsIn {step : Process C W → β × Process C W}
    {step' : Process (C × List (Interception C)) W → β × Process (C × List (Interception C)) W}
    (tracks : Tracks step step') (process : Process C W) :
    step' (process.journaled []) =
      ((step process).1, (step process).2.journaled (process.runsIn step')) := by
  obtain ⟨journal, same⟩ := tracks process []
  rw [Process.runsIn, same]
  rfl

/-- A response beside a journal comes to the same, if the calls that it makes do so. The induction
is on the response; the journal that each call leaves is the one the next begins with. -/
theorem tracks_run {enter : CompileCall → Process C W → Int32 × Process C W}
    {sift : CompileEvent → Process C W → FilterOutcome × Process C W}
    {enter' : CompileCall → Process (C × List (Interception C)) W →
      Int32 × Process (C × List (Interception C)) W}
    {sift' : CompileEvent → Process (C × List (Interception C)) W →
      FilterOutcome × Process (C × List (Interception C)) W}
    (enters : ∀ call, Tracks (enter call) (enter' call))
    (sifts : ∀ event, Tracks (sift event) (sift' event)) (response : Response C W α) :
    Tracks (response.run enter sift) (response.beside.run enter' sift') := by
  induction response with
  | finish value => exact fun process journal => ⟨journal, rfl⟩
  | observe rest ih => exact fun process journal => ih _ _ process journal
  | countDepth rest ih => exact fun process journal => ih _ process journal
  | store client world rest ih =>
    exact fun process journal => ih { process with client, world } journal
  | report notice rest ih => exact fun process journal => ih (process.report [notice]) journal
  | arm method rest ih =>
    exact fun process journal =>
      ih (process.onFilter fun filter => { filter with targetMethod := method }) journal
  | compile call rest ih =>
    intro process journal
    obtain ⟨middle, same⟩ := enters call process journal
    simp only [Response.beside, Response.run, same]
    exact ih _ _ middle
  | sift event rest ih =>
    intro process journal
    obtain ⟨middle, same⟩ := sifts event process journal
    simp only [Response.beside, Response.run, same]
    rcases sift event process with ⟨outcome, after⟩
    cases outcome with
    | broken => exact ⟨middle, rfl⟩
    | forward event => exact ih _ _ middle
    | claimed => exact ih _ _ middle
    | failed => exact ih _ _ middle

/-- A run of the callback that ends is entered, whatever becomes of its verdict. -/
theorem tracks_journaled {enter : CompileCall → Process C W → Int32 × Process C W}
    {sift : CompileEvent → Process C W → FilterOutcome × Process C W}
    {enter' : CompileCall → Process (C × List (Interception C)) W →
      Int32 × Process (C × List (Interception C)) W}
    {sift' : CompileEvent → Process (C × List (Interception C)) W →
      FilterOutcome × Process (C × List (Interception C)) W}
    (enters : ∀ call, Tracks (enter call) (enter' call))
    (sifts : ∀ event, Tracks (sift event) (sift' event)) (callback : Callback C W)
    (event : CompileEvent) :
    Tracks ((callback event).run enter sift) ((callback.journaled event).run enter' sift') := by
  intro process journal
  obtain ⟨middle, same⟩ := tracks_run enters sifts (callback event) process journal
  rw [Callback.journaled, run_andThen, same]
  rcases (callback event).run enter sift process with ⟨verdict, after⟩
  cases verdict with
  | none => exact ⟨middle, rfl⟩
  | some verdict => exact ⟨middle ++ [⟨event, verdict, after.client⟩], rfl⟩

/-- Concluding from a verdict does not look at the journal. -/
theorem conclude_journaled (verdict : Verdict) (process : Process C W)
    (journal : List (Interception C)) :
    Process.conclude verdict ((process.journaled journal).onFilter .leave) =
      ((Process.conclude verdict (process.onFilter .leave)).1,
        (Process.conclude verdict (process.onFilter .leave)).2.journaled journal) := by
  cases verdict <;> rfl

/-- Containing a breakdown does not look at the journal. -/
theorem tracks_contain {step : Process C W → FilterOutcome × Process C W}
    {step' : Process (C × List (Interception C)) W →
      FilterOutcome × Process (C × List (Interception C)) W} (tracks : Tracks step step') :
    Tracks (fun process => Process.contain (step process))
      (fun process => Process.contain (step' process)) := by
  intro process journal
  obtain ⟨middle, same⟩ := tracks process journal
  refine ⟨middle, ?_⟩
  dsimp only
  rw [same]
  rcases step process with ⟨outcome, after⟩
  cases outcome <;> rfl

/-- Asking for the target does not look at the journal. -/
theorem tracks_isTarget [Introspection W] (request : CompileRequest) :
    Tracks (C := C) (W := W) (Process.isTarget request) (Process.isTarget request) := by
  intro process journal
  refine ⟨journal, ?_⟩
  unfold Process.isTarget
  dsimp only [Process.journaled]
  split
  next => rfl
  next =>
    cases process.filter.resolver.resolve request.methodHandle process.world <;> rfl

section

variable [NativeCode W]

/-- An entry comes to the same beside a journal, if filtering does. -/
theorem tracks_enterWith
    {sift : CompileEvent → Process C W → FilterOutcome × Process C W}
    {sift' : CompileEvent → Process (C × List (Interception C)) W →
      FilterOutcome × Process (C × List (Interception C)) W}
    (sifts : ∀ event, Tracks (sift event) (sift' event)) (call : CompileCall) :
    Tracks (Process.enterWith sift call) (Process.enterWith sift' call) := by
  have routes (slot : Slot) :
      Tracks (Process.route sift slot call) (Process.route sift' slot call) := by
    intro process journal
    unfold Process.route
    dsimp only
    split
    next => exact ⟨journal, rfl⟩
    next =>
      obtain ⟨middle, same⟩ := tracks_contain (sifts (call.event slot.layout)) process journal
      dsimp only at same
      rw [same]
      rcases Process.contain (sift (call.event slot.layout) process) with ⟨outcome, after⟩
      cases outcome <;> exact ⟨middle, rfl⟩
  intro process journal
  have same_entrance : (process.journaled journal).entrance call = process.entrance call := rfl
  rw [enterWith_eq, enterWith_eq, same_entrance]
  cases process.entrance call with
  | error result => exact ⟨journal, rfl⟩
  | ok slot => exact routes slot process journal

variable [Introspection W]

/-- Filtering with a journal is filtering. -/
theorem tracks_siftWithin (levels : Nat) (event : CompileEvent) :
    Tracks (C := C) (W := W) (Process.siftWithin levels event)
      (Process.siftWithin levels event) := by
  induction levels generalizing event with
  | zero => exact fun process journal => ⟨journal, rfl⟩
  | succ levels ih =>
    intro process journal
    have depth_eq : (process.journaled journal).filter.depth = process.filter.depth := rfl
    unfold Process.siftWithin
    cases event.request? with
    | none => exact ⟨journal, rfl⟩
    | some request =>
      dsimp only
      rw [depth_eq]
      split
      next => exact ⟨journal, rfl⟩
      next =>
        obtain ⟨middle, same⟩ := tracks_isTarget request process journal
        rw [same]
        rcases process.isTarget request with ⟨isTarget, after⟩
        have callback_eq : (after.journaled middle).filter.callback =
            after.filter.callback.map Callback.journaled := rfl
        cases isTarget with
        | false => exact ⟨middle, rfl⟩
        | true =>
          simp only [callback_eq, Bool.not_true]
          cases after.filter.callback with
          | none => exact ⟨middle, rfl⟩
          -- the callback and the nested siftings are those one level down, which journal alike
          | some callback =>
            obtain ⟨last, ran⟩ := tracks_journaled
              (fun call => tracks_enterWith ih call) ih callback event (after.onFilter .enter)
              middle
            have entered : (after.journaled middle).onFilter .enter =
                (after.onFilter .enter).journaled middle := rfl
            refine ⟨last, ?_⟩
            dsimp only [Option.map_some]
            rw [entered, ran]
            exact conclude_journaled _ _ last

/-- Filtering comes to the same whether a journal is kept or not. -/
theorem tracks_sift (event : CompileEvent) :
    Tracks (C := C) (W := W) (Process.sift event) (Process.sift event) :=
  fun process journal =>
    tracks_siftWithin (maxDepth + 1 - process.filter.depth) event process journal

/-- A call comes to the same whether a journal is kept or not. -/
theorem tracks_enter (call : CompileCall) :
    Tracks (C := C) (W := W) (Process.enter call) (Process.enter call) :=
  tracks_enterWith tracks_sift call

/-- An errand comes to the same with a journal, in which its interceptions are entered. -/
theorem perform_journaled {ε : Type} (errand : Errand ε W α) (process : Process C W) :
    Process.perform errand (process.journaled []) =
      match Process.perform errand process with
      | .ok value final => .ok value (final.journaled (process.interceptions errand))
      | .error failure final =>
        .error failure (final.journaled (process.interceptions errand)) := by
  -- The errand goes on with the journal of its first call, so the induction is for any journal.
  have somehow (process : Process C W) (journal : List (Interception C)) :
      ∃ journal' : List (Interception C), Process.perform errand (process.journaled journal) =
        match Process.perform errand process with
        | .ok value final => .ok value (final.journaled journal')
        | .error failure final => .error failure (final.journaled journal') := by
    induction errand generalizing process journal with
    | done result => cases result <;> exact ⟨journal, rfl⟩
    | observe next ih => exact ih _ process journal
    | store world next ih => exact ih { process with world } journal
    | compile call next ih =>
      obtain ⟨middle, same⟩ := tracks_enter call process journal
      simp only [Process.perform, same]
      exact ih _ _ middle
  obtain ⟨journal, same⟩ := somehow process []
  unfold Process.interceptions
  rw [same]
  cases Process.perform errand process <;> rfl

/-- After an errand the journal holds the interceptions in it, and the process is the one without a
journal. -/
theorem finalState_perform_journaled {ε : Type} (errand : Errand ε W α) (process : Process C W) :
    finalState (Process.perform errand (process.journaled [])) =
      (finalState (Process.perform errand process)).journaled (process.interceptions errand) := by
  rw [perform_journaled]
  cases Process.perform errand process <;> rfl

end

end CilCapture.Compile
