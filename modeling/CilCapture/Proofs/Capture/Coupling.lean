import CilCapture.Proofs.Capture.Alike
import CilCapture.Proofs.Capture.Steps
import CilCapture.Proofs.Engine.Identity

/-!
# Recording in coupled processes

Two processes that record may differ in what their resolvers remember, in the routine that tells
clauses, in their records and notices, and in the part of the workspace that a relation leaves open.
None of this is noticed as long as something is recorded: `Twinned` is a coupling
(`coupling_twinned`), so that calls come to the same in both, make the same captures and stage the
same bodies.

With no second process at all it is what a process that records keeps of its workspace.

Captures are compared step by step: each elementary step keeps the relation (`closed_couples`), and
by `Closed.gather` so does the whole of a capture. The counts of the two recorders differ by a
number that stays the same (`Twinned.count`), which is why a count is never compared and only its
growth is.

`Surroundings` and `Alike` list what has to be assumed of the engine and of the collaborators. It is
all about what rows can notice, and `Independence` has an instance in which all of it is proved.
-/

namespace CilCapture.Capture

open Body Compile Engine

variable {ι M W α β : Type}

/-! ## Steps side by side -/

/-- Two steps of captures, one in a process and the other in its variants, that keep a relation and
come to the same. -/
def CouplesSteps
    (R : Process Recorder (Workspace M W) → (ι → Process Recorder (Workspace M W)) → Prop)
    (enter : CompileCall → Process Recorder (Workspace M W) →
      Int32 × Process Recorder (Workspace M W))
    (sift : CompileEvent → Process Recorder (Workspace M W) →
      FilterOutcome × Process Recorder (Workspace M W))
    (enter' : CompileCall → Process Recorder (Workspace M W) →
      Int32 × Process Recorder (Workspace M W))
    (sift' : CompileEvent → Process Recorder (Workspace M W) →
      FilterOutcome × Process Recorder (Workspace M W))
    (step step' : CaptureStep M W α) : Prop :=
  Couples R (step.run.run enter sift) (step'.run.run enter' sift')

section

variable {R : Process Recorder (Workspace M W) → (ι → Process Recorder (Workspace M W)) → Prop}
variable {enter enter' : CompileCall → Process Recorder (Workspace M W) →
  Int32 × Process Recorder (Workspace M W)}
variable {sift sift' : CompileEvent → Process Recorder (Workspace M W) →
  FilterOutcome × Process Recorder (Workspace M W)}

/-- Clauses are read in one step on the workspace, which cannot fail. -/
theorem run_read [NativeCode W] (reader : ClauseReader) (jitInfo method : Address) (count : Nat)
    (process : Process Recorder (Workspace M W)) :
    (onWorkspace (.ofStep fun workspace =>
      .ok (reader.read jitInfo method count workspace).1
        (reader.read jitInfo method count workspace).2)).run.run enter sift process =
      (some (.ok (reader.read jitInfo method count process.world).1),
        { process with world := (reader.read jitInfo method count process.world).2 }) := rfl

/-- Notices go to the log of the process and nowhere else. -/
theorem run_reporting (notices : List Notice) (process : Process Recorder (Workspace M W)) :
    (reporting (M := M) (W := W) notices).run.run enter sift process =
      (some (.ok ()), process.report notices) := by
  have reported (notices : List Notice) (process : Process Recorder (Workspace M W)) :
      (notices.foldr .report (.finish ()) :
        Response Recorder (Workspace M W) Unit).run enter sift process =
          (some (), process.report notices) := by
    induction notices generalizing process with
    | nil => simp [Response.run, Process.report]
    | cons notice rest ih =>
      rw [List.foldr_cons, Response.run, ih]
      simp [Process.report]
  change ((notices.foldr .report (.finish ()) : Response Recorder (Workspace M W) Unit).andThen
    fun value => .finish (Except.ok value)).run enter sift process = _
  rw [run_andThen, reported]
  rfl

/-- A step that does nothing keeps every relation. -/
theorem couplesSteps_pure (value : α) :
    CouplesSteps R enter sift enter' sift' (pure value : CaptureStep M W α) (pure value) :=
  fun _ _ related => agree_pair _ related

/-- A step that only fails keeps every relation. -/
theorem couplesSteps_throw (abort : Abort) :
    CouplesSteps R enter sift enter' sift' (throw abort : CaptureStep M W α) (throw abort) :=
  fun _ _ related => agree_pair _ related

/-- A sequence of steps in a process: a failure or a breakdown of the first one is the end of both.
-/
theorem run_bind (step : CaptureStep M W α) (next : α → CaptureStep M W β)
    (process : Process Recorder (Workspace M W)) :
    (step >>= next).run.run enter sift process =
      match step.run.run enter sift process with
      | (some (.ok value), process) => (next value).run.run enter sift process
      | (some (.error abort), process) => (some (.error abort), process)
      | (none, process) => (none, process) := by
  change (step.run.andThen (ExceptT.bindCont next)).run enter sift process = _
  rw [run_andThen]
  rcases step.run.run enter sift process with ⟨_ | _ | _, after⟩ <;> rfl

/-- A step on the workspace comes to what it comes to there, and the process has the workspace it
leaves. -/
theorem run_ofStep (step : EStateM Abort (Workspace M W) α)
    (process : Process Recorder (Workspace M W)) :
    (onWorkspace (.ofStep step)).run.run enter sift process =
      (some (resultOf (step process.world)),
        { process with world := finalState (step process.world) }) := by
  rw [onWorkspace, ExceptT.run, ExceptT.mk, Errand.ofStep, Response.ofErrand, Response.run]
  cases step process.world <;> rfl

/-- Steps that are coupled stay coupled in sequence: since both come to the same values, both go on
or both stop. -/
theorem couplesSteps_bind {step step' : CaptureStep M W α} {next next' : α → CaptureStep M W β}
    (first : CouplesSteps R enter sift enter' sift' step step')
    (second : ∀ value, CouplesSteps R enter sift enter' sift' (next value) (next' value)) :
    CouplesSteps R enter sift enter' sift' (step >>= next) (step' >>= next') := by
  intro process others related
  obtain ⟨middles, same, related⟩ := first process others related
  simp only [run_bind, same]
  generalize step.run.run enter sift process = result at related ⊢
  obtain ⟨_ | abort | value, middle⟩ := result
  · exact agree_pair _ related
  · exact agree_pair _ related
  · exact second value middle middles related

end

/-! ## Surroundings -/

/-- What captures rely on. -/
structure Surroundings (M W : Type) where
  facts : Facts
  /-- The owner of a method's code, as the resolver is to tell it. -/
  owner : Handle → Except Fault Handle
  /-- The routines that tell clauses, or the fault of looking for one in vain. -/
  readers : Except Fault (ClauseReader → Prop)
  /-- The workspaces that may come about. -/
  possible : Workspace M W → Prop
  /-- What a possible workspace may become without any row noticing. -/
  quiet : Workspace M W → Workspace M W → Prop

namespace Surroundings

variable [NativeCode W] [CodeSpace W] {admits : CompileCall → Prop}

/-- Where a routine that tells clauses is looked for by the interface of an admitted call, one is
found, or none with the one fault, and no row notices. -/
def Locates (around : Surroundings M W) (admits : CompileCall → Prop) (rules : CaptureRules M W) :
    Prop :=
  ∀ call, admits call → ∀ workspace, around.possible workspace →
    match around.readers with
    | .ok good => ∃ reader final, good reader ∧ around.quiet workspace final ∧
      ClauseReader.locate rules.flavor rules.architecture call.jitInfo workspace = .ok reader final
    | .error fault => ∃ final, around.quiet workspace final ∧
      ClauseReader.locate rules.flavor rules.architecture call.jitInfo workspace =
        .error fault final

/-- A workspace and variants of it in which captures find the same. -/
structure Shared [Introspection W] (around : Surroundings M W) (admits : CompileCall → Prop)
    (S : Workspace M W → (ι → Workspace M W) → Prop) : Prop where
  possible : ∀ {workspace variants}, S workspace variants →
    around.possible workspace ∧ ∀ i, around.possible (variants i)
  quiet : ∀ {workspace variants}, S workspace variants → ∀ {after afters},
    around.quiet workspace after → (∀ i, around.quiet (variants i) (afters i)) → S after afters
  output : ∀ {workspace variants}, S workspace variants →
    ∀ i, (variants i).output.isNone = workspace.output.isNone
  compile : ∀ {workspace variants}, S workspace variants → ∀ call, admits call → ∀ function,
    (∀ i, (NativeCode.compile function call (variants i)).1 =
        (NativeCode.compile function call workspace).1) ∧
      S (NativeCode.compile function call workspace).2 fun i =>
        (NativeCode.compile function call (variants i)).2
  read : ∀ {workspace variants}, S workspace variants → ∀ call, admits call →
    ∀ good, around.readers = .ok good → ∀ reader, good reader →
      ∀ readers : ι → ClauseReader, (∀ i, good (readers i)) → ∀ method count,
        (∀ i, ((readers i).read call.jitInfo method count (variants i)).1 =
            (reader.read call.jitInfo method count workspace).1) ∧
          S (reader.read call.jitInfo method count workspace).2 fun i =>
            ((readers i).read call.jitInfo method count (variants i)).2

/-- Surroundings that the engine bears out: asked about a method it answers by the facts, and no row
notices that it was asked. -/
structure Answered [Introspection W] (around : Surroundings M W) : Prop where
  refl : ∀ {workspace}, around.possible workspace → around.quiet workspace workspace
  told : ∀ {workspace}, around.possible workspace → around.facts.Told (around.quiet workspace)

end Surroundings

/-! ## Twins -/

/-- Whether a request is for the armed method, if handles have these owners. -/
def targets (owner : Handle → Except Fault Handle) (filter : Filter Recorder (Workspace M W))
    (request : CompileRequest) : Bool :=
  if filter.targetMethod = 0 ∨ request.moduleHandle ≠ filter.targetModule then false
  else
    match owner request.methodHandle with
    | .ok resolved => resolved == filter.targetMethod
    | .error _ => false

/-- Processes that are armed and redirected in the same way. -/
structure Twins (process twin : Process Recorder (Workspace M W)) : Prop where
  targetModule : twin.filter.targetModule = process.filter.targetModule
  targetMethod : twin.filter.targetMethod = process.filter.targetMethod
  depth : twin.filter.depth = process.filter.depth
  stashed : twin.filter.stashed = process.filter.stashed
  methodSlot : twin.methodSlot = process.methodSlot
  compSlot : twin.compSlot = process.compSlot
  targetRow : twin.client.targetRow = process.client.targetRow
  staged : twin.client.staged = process.client.staged

/-- Twins have the same method armed. -/
theorem targets_of_twins {process twin : Process Recorder (Workspace M W)}
    (twins : Twins process twin) (owner : Handle → Except Fault Handle) (request : CompileRequest) :
    targets owner twin.filter request = targets owner process.filter request := by
  unfold targets
  rw [twins.targetMethod, twins.targetModule]

section

variable [NativeCode W] [CodeSpace W]

/-- A process that records by some rules and remembers nothing but what is the case. -/
structure Recording (around : Surroundings M W) (rules : CaptureRules M W)
    (process : Process Recorder (Workspace M W)) : Prop where
  callback_eq : process.filter.callback = some (record rules)
  sound : process.filter.resolver.Sound around.facts
  owner_eq : process.filter.resolver.rule around.facts = around.owner
  reader : ∀ reader, process.client.clauseReader = some reader →
    ∃ good, around.readers = .ok good ∧ good reader

/-- A process that records and twins of it, in workspaces that are related, each of which has made
as many captures more than it is compared with. -/
structure Twinned (around : Surroundings M W) (S : Workspace M W → (ι → Workspace M W) → Prop)
    (rules rules' : CaptureRules M W) (base : Nat) (bases : ι → Nat)
    (process : Process Recorder (Workspace M W))
    (others : ι → Process Recorder (Workspace M W)) : Prop where
  related : S process.world fun i => (others i).world
  here : Recording around rules process
  there : ∀ i, Recording around rules' (others i)
  twins : ∀ i, Twins process (others i)
  count : ∀ i, process.client.count + bases i = (others i).client.count + base

section

variable {around : Surroundings M W} {S : Workspace M W → (ι → Workspace M W) → Prop}
variable {rules rules' : CaptureRules M W} {base : Nat} {bases : ι → Nat}
variable {process : Process Recorder (Workspace M W)}
variable {others : ι → Process Recorder (Workspace M W)}

/-- A routine that was found may be remembered, since it is one of the good ones. -/
theorem Recording.withReader (recording : Recording around rules process)
    {good : ClauseReader → Prop} (readers_eq : around.readers = .ok good) {reader : ClauseReader}
    (is_good : good reader) (workspace : Workspace M W) :
    Recording around rules { process with
      client := { process.client with clauseReader := some reader }
      world := workspace } := by
  refine ⟨recording.callback_eq, recording.sound, recording.owner_eq, ?_⟩
  rintro _ ⟨⟩
  exact ⟨good, readers_eq, is_good⟩

/-- Twins in worlds that are related in another way are twins by that relation. -/
theorem Twinned.withWorld {T : Workspace M W → (ι → Workspace M W) → Prop}
    (twinned : Twinned around S rules rules' base bases process others)
    {workspace : Workspace M W} {workspaces : ι → Workspace M W}
    (related : T workspace workspaces) :
    Twinned around T rules rules' base bases { process with world := workspace }
      fun i => { others i with world := workspaces i } where
  related := related
  here := { twinned.here with }
  there i := { twinned.there i with }
  twins i := { twinned.twins i with }
  count := twinned.count

/-- Being twins looks at the worlds only through their relation. -/
theorem over_twinned : Over S (Twinned around S rules rules' base bases) where
  worlds twinned := twinned.related
  move twinned _ _ related := twinned.withWorld related

/-- Whether a request is a target is decided by the facts and what is armed; asking changes what is
remembered and the world, but no row notices. -/
theorem isTarget_spec [Introspection W] (answered : around.Answered)
    (possible : around.possible process.world) (recording : Recording around rules process)
    (request : CompileRequest) :
    ∃ resolver final, process.isTarget request =
        (targets around.owner process.filter request,
          { process with filter := { process.filter with resolver }, world := final }) ∧
      resolver.Sound around.facts ∧ resolver.rule around.facts = around.owner ∧
      around.quiet process.world final := by
  have here := answered.refl possible
  unfold Process.isTarget targets
  dsimp only
  by_cases free : process.filter.targetMethod = 0 ∨
    request.moduleHandle ≠ process.filter.targetModule
  · rw [if_pos free, if_pos free]
    exact ⟨process.filter.resolver, process.world, rfl, recording.sound, recording.owner_eq, here⟩
  · rw [if_neg free, if_neg free]
    obtain ⟨after, final, resolved, sound, same_rule, there⟩ := Resolver.resolve_spec
      (answered.told possible) recording.sound request.methodHandle here
    refine ⟨after, final, ?_, sound, same_rule.trans recording.owner_eq, there⟩
    rw [resolved, recording.owner_eq]
    cases around.owner request.methodHandle <;> rfl

/-- Filters of twins decide alike whether a request is for the armed method. -/
theorem couples_isTarget [Introspection W] {admits : CompileCall → Prop}
    (answered : around.Answered) (shared : around.Shared admits S) (request : CompileRequest) :
    Couples (Twinned around S rules rules' base bases) (Process.isTarget request)
      (Process.isTarget request) := by
  intro process others twinned
  obtain ⟨possible, possibles⟩ := shared.possible twinned.related
  obtain ⟨resolver, final, asked, sound, owner_eq, quiet⟩ :=
    isTarget_spec answered possible twinned.here request
  choose resolvers finals all_asked sounds owners_eq quiets using
    fun i => isTarget_spec answered (possibles i) (twinned.there i) request
  simp only [targets_of_twins (twinned.twins _)] at all_asked
  rw [asked]
  exact ⟨_, all_asked, {
    related := shared.quiet twinned.related quiet quiets
    here := { twinned.here with sound, owner_eq }
    there := fun i => { twinned.there i with sound := sounds i, owner_eq := owners_eq i }
    twins := fun i => { twinned.twins i with }
    count := twinned.count }⟩

/-! ## The steps of a capture -/

section

variable {admits : CompileCall → Prop}
variable {enter enter' : CompileCall → Process Recorder (Workspace M W) →
  Int32 × Process Recorder (Workspace M W)}
variable {sift sift' : CompileEvent → Process Recorder (Workspace M W) →
  FilterOutcome × Process Recorder (Workspace M W)}

/-- Marking the begin of a dump changes nothing that twins share. -/
theorem couples_begins :
    CouplesSteps (Twinned around S rules rules' base bases) enter sift enter' sift'
      (onRecorder fun recorder => { recorder with phase := .dumping })
      (onRecorder fun recorder => { recorder with phase := .dumping }) :=
  fun _ _ twinned => ⟨_, fun _ => rfl, { twinned with
    here := { twinned.here with }
    there := fun i => { twinned.there i with }
    twins := fun i => { twinned.twins i with } }⟩

/-- Reporting notices changes nothing that twins share. -/
theorem couples_reporting (notices : List Notice) :
    CouplesSteps (Twinned around S rules rules' base bases) enter sift enter' sift'
      (reporting notices) (reporting notices) := by
  intro process others twinned
  simp only [run_reporting]
  exact ⟨_, fun _ => rfl, { twinned with
    here := { twinned.here with }
    there := fun i => { twinned.there i with }
    twins := fun i => { twinned.twins i with } }⟩

/-- A resolver that works alike in twins is asked alike in captures. -/
theorem couples_resolve (opcode : Il.Opcode) (token : Token)
    (enters : ∀ call, admits call →
      Couples (Twinned around S rules rules' base bases) (enter call) (enter' call))
    (like : ∀ workspace variants, S workspace variants →
      (rules.resolver opcode token).Like S admits (fun _ => True) workspace
        (fun _ => rules'.resolver opcode token) variants) :
    CouplesSteps (Twinned around S rules rules' base bases) enter sift enter' sift'
      (onWorkspace (rules.resolver opcode token)) (onWorkspace (rules'.resolver opcode token)) :=
  fun _ _ twinned =>
    (agree_ofErrand enters over_twinned twinned (like _ _ twinned.related)).1

/-- The routine that tells clauses is one of those that there are, or it is looked for in vain. -/
theorem run_clauseReader
    (enter : CompileCall → Process Recorder (Workspace M W) →
      Int32 × Process Recorder (Workspace M W))
    (sift : CompileEvent → Process Recorder (Workspace M W) →
      FilterOutcome × Process Recorder (Workspace M W))
    (reflexive : around.quiet process.world process.world)
    (possible : around.possible process.world) (locates : around.Locates admits rules)
    (recording : Recording around rules process) {call : CompileCall} (admitted : admits call) :
    match around.readers with
    | .ok good => ∃ reader final, good reader ∧ around.quiet process.world final ∧
      (clauseReader rules call.jitInfo).run.run enter sift process = (some (.ok reader),
        { process with
          client := { process.client with clauseReader := some reader }
          world := final })
    | .error fault => ∃ final, around.quiet process.world final ∧
      (clauseReader rules call.jitInfo).run.run enter sift process =
        (some (.error (.fault fault)), { process with world := final }) := by
  have found := locates call admitted process.world possible
  have looked : (current : CaptureStep M W _).run.run enter sift process =
    (some (.ok (process.client, process.world)), process) := rfl
  unfold clauseReader
  rw [run_bind, looked]
  dsimp only
  -- a reader kept from an earlier event is one of the good ones already
  cases kept : process.client.clauseReader with
  | some reader =>
    obtain ⟨good, readers_eq, here⟩ := recording.reader reader kept
    rw [readers_eq]
    have same : { process.client with clauseReader := some reader } = process.client := by
      rw [← kept]
    refine ⟨reader, process.world, here, reflexive, ?_⟩
    rw [same]
    rfl
  | none =>
    dsimp only
    rw [run_bind, run_ofStep]
    cases readers_eq : around.readers with
    | ok good =>
      rw [readers_eq] at found
      obtain ⟨reader, final, here, quiet, located⟩ := found
      refine ⟨reader, final, here, quiet, ?_⟩
      rw [faulting, located]
      rfl
    | error fault =>
      rw [readers_eq] at found
      obtain ⟨final, quiet, located⟩ := found
      refine ⟨final, quiet, ?_⟩
      rw [faulting, located]
      rfl

/-- The clauses are read alike: a routine is remembered or looked for, and either way it is a good
one, or there is none in both. -/
theorem couples_clauses [Introspection W] (answered : around.Answered)
    (shared : around.Shared admits S) (locates : around.Locates admits rules)
    (locates' : around.Locates admits rules') {call : CompileCall} (admitted : admits call)
    (request : CompileRequest) :
    CouplesSteps (Twinned around S rules rules' base bases) enter sift enter' sift'
      (captureClauses rules call.jitInfo request) (captureClauses rules' call.jitInfo request) := by
  intro process others twinned
  obtain ⟨possible, possibles⟩ := shared.possible twinned.related
  have here := run_clauseReader enter sift (answered.refl possible) possible locates twinned.here
    admitted
  have there := fun i => run_clauseReader enter' sift' (answered.refl (possibles i)) (possibles i)
    locates' (twinned.there i) admitted
  -- without clauses the reader is not even looked for
  unfold captureClauses
  by_cases none : request.clauseCount = 0
  · simp only [if_pos none]
    exact agree_pair _ twinned
  · simp only [if_neg none, run_bind]
    -- either both runs find a reader, each its own, or neither does
    cases readers_eq : around.readers with
    | error fault =>
      rw [readers_eq] at here there
      obtain ⟨final, quiet, ran⟩ := here
      choose finals quiets rans using there
      simp only [ran, rans]
      exact ⟨_, fun _ => rfl, { twinned with
        related := shared.quiet twinned.related quiet quiets
        here := { twinned.here with }
        there := fun i => { twinned.there i with }
        twins := fun i => { twinned.twins i with } }⟩
    | ok good =>
      rw [readers_eq] at here there
      obtain ⟨reader, final, is_good, quiet, ran⟩ := here
      choose readers finals are_good quiets rans using there
      have related := shared.quiet twinned.related quiet quiets
      obtain ⟨same, related⟩ := shared.read related call admitted good readers_eq reader is_good
        readers are_good request.methodHandle request.clauseCount.toNat
      simp only [ran, rans, run_read, same]
      exact ⟨_, fun _ => rfl, {
        related
        here := twinned.here.withReader readers_eq is_good _
        there := fun i => (twinned.there i).withReader readers_eq (are_good i) _
        twins := fun i => { twinned.twins i with }
        count := twinned.count }⟩

/-! ## The run of a callback -/

/-- What a run of the callback comes to after the gathering ended. -/
def concludeRecord (row : Nat) :
    Option (Except Abort (CompileRequest × MethodBody)) × Process Recorder (Workspace M W) →
      Option Verdict × Process Recorder (Workspace M W)
  | (none, process) => (none, process)
  | (some (.error abort), process) => (some (captureVerdict (.error abort)), process)
  | (some (.ok (request, body)), process) =>
    if process.world.output.isNone then (some (.fail .noOutputModule), process)
    else (some .claim, { process with client := process.client.stage row request.code body })

/-- A run of the callback gathers a body for the armed row and concludes from what that came to;
without a row it forwards the call. -/
theorem run_record (rules : CaptureRules M W) (event : CompileEvent)
    (process : Process Recorder (Workspace M W)) :
    (record rules event).run enter sift process =
      match process.client.targetRow with
      | none => (some (.forward event), process)
      | some row => concludeRecord row ((gather rules row event).run.run enter sift process) := by
  rw [record, Response.run]
  cases process.client.targetRow with
  | none => rfl
  | some row =>
    have verdict_eq : captureVerdict <$> (captureBody rules row event).run =
        (captureBody rules row event).run.andThen fun result =>
          .finish (captureVerdict result) := rfl
    dsimp only
    rw [verdict_eq, run_andThen, captureBody_eq, run_bind]
    rcases (gather rules row event).run.run enter sift process with
      ⟨_ | abort | ⟨request, body⟩, after⟩
    · rfl
    · rfl
    · have looked : (deposit row (request, body)).run.run enter sift after =
          (do
            if after.world.output.isNone then throw (.fault .noOutputModule)
            onRecorder (.stage row request.code body) : CaptureStep M W Unit).run.run enter sift
              after := rfl
      dsimp only
      rw [looked, concludeRecord]
      cases after.world.output.isNone <;> rfl

/-- A recorder forwards at most the event that it was given. -/
theorem eq_of_record_forward {event forwarded : CompileEvent}
    (ran : ((record rules event).run enter sift process).1 = some (.forward forwarded)) :
    forwarded = event := by
  rw [run_record] at ran
  cases armed : process.client.targetRow with
  | none =>
    rw [armed] at ran
    cases ran
    rfl
  | some row =>
    rw [armed] at ran
    dsimp only at ran
    generalize (gather rules row event).run.run enter sift process = result at ran
    obtain ⟨_ | abort | ⟨request, body⟩, after⟩ := result
    · cases ran
    · cases abort <;> simp [concludeRecord, captureVerdict] at ran
    · simp only [concludeRecord] at ran
      split at ran <;> cases ran

/-! ## Coupled recorders -/

/-- What two sets of rules do alike for admitted calls. -/
structure Alike [Introspection W] (around : Surroundings M W) (admits : CompileCall → Prop)
    (S : Workspace M W → (ι → Workspace M W) → Prop) (rules rules' : CaptureRules M W) : Prop where
  answered : around.Answered
  shared : around.Shared admits S
  locates : around.Locates admits rules
  locates' : around.Locates admits rules'
  resolve : ∀ opcode token workspace variants, S workspace variants →
    (rules.resolver opcode token).Like S admits (fun _ => True) workspace
      (fun _ => rules'.resolver opcode token) variants

variable [Introspection W]

/-- Coupled steps are closed under all that captures are made of, so whole captures are coupled. -/
theorem closed_couples (alike : Alike around admits S rules rules')
    (enters : ∀ call, admits call →
      Couples (Twinned around S rules rules' base bases) (enter call) (enter' call))
    {call : CompileCall} (admitted : admits call) :
    Closed rules rules' call.jitInfo fun _ =>
      CouplesSteps (Twinned around S rules rules' base bases) enter sift enter' sift' where
  pure := couplesSteps_pure
  throw := couplesSteps_throw
  bind := couplesSteps_bind
  begins := couples_begins
  reporting := couples_reporting
  clauses := couples_clauses alike.answered alike.shared alike.locates alike.locates' admitted
  resolve opcode token := couples_resolve opcode token enters (alike.resolve opcode token)

/-- Twins conclude alike: there is an output module in both or in none, and staging counts one
capture up in both. -/
theorem couples_concludeRecord (shared : around.Shared admits S) (row : Nat)
    (result : Option (Except Abort (CompileRequest × MethodBody))) :
    Couples (Twinned around S rules rules' base bases)
      (fun process => concludeRecord row (result, process))
      (fun process => concludeRecord row (result, process)) := by
  intro process others twinned
  rcases result with _ | abort | ⟨request, body⟩
  · exact agree_pair _ twinned
  · exact agree_pair _ twinned
  · simp only [concludeRecord, shared.output twinned.related]
    split
    next => exact agree_pair _ twinned
    next =>
      refine ⟨_, fun _ => rfl, { twinned with
        here := { twinned.here with }
        there := fun i => { twinned.there i with }
        twins := fun i => { twinned.twins i with staged := rfl }
        count := fun i => ?_ }⟩
      have counted := twinned.count i
      change process.client.count + 1 + bases i = (others i).client.count + 1 + base
      omega

/-- Recorders come to the same. -/
theorem couplesCallbacks_record (alike : Alike around admits S rules rules') :
    CouplesCallbacks admits (Twinned around S rules rules' base bases) (record rules)
      (record rules') := by
  intro sift sift' _ enters call admitted layout process others twinned
  refine ⟨?_, fun event ran => ?_⟩
  · simp only [run_record, (twinned.twins _).targetRow]
    cases process.client.targetRow with
    | none => exact agree_pair _ twinned
    | some row =>
      have closed : Closed rules rules' (call.event layout).jitInfo fun _ =>
          CouplesSteps (Twinned around S rules rules' base bases)
            (Process.enterWith sift) sift (Process.enterWith sift') sift' :=
        closed_couples alike enters admitted
      have gathers := closed.gather row
      obtain ⟨middles, same, middle⟩ := gathers process others twinned
      simp only [same]
      exact couples_concludeRecord alike.shared row _ _ _ middle
  · cases eq_of_record_forward ran
    exact admitted

/-- Twins stay twins through whatever is called. -/
theorem coupling_twinned (alike : Alike around admits S rules rules') :
    Coupling admits (Twinned around S rules rules' base bases) where
  entrance twinned call _ i := by
    unfold Process.entrance
    rw [(twinned.twins i).methodSlot, (twinned.twins i).compSlot]
  depth twinned i := (twinned.twins i).depth
  isTarget _ _ _ request _ := couples_isTarget alike.answered alike.shared request
  callback twinned := by
    refine ⟨some (record rules'), fun i => (twinned.there i).callback_eq, ?_⟩
    rw [twinned.here.callback_eq]
    exact .some (couplesCallbacks_record alike)
  begins _ _ twinned := { twinned with
    here := { twinned.here with }
    there := fun i => { twinned.there i with }
    twins := fun i =>
      { twinned.twins i with depth := congrArg (· + 1) (twinned.twins i).depth } }
  ends _ _ twinned := { twinned with
    here := { twinned.here with }
    there := fun i => { twinned.there i with }
    twins := fun i =>
      { twinned.twins i with depth := congrArg (· - 1) (twinned.twins i).depth } }
  stash _ _ _ twinned := { twinned with
    here := { twinned.here with }
    there := fun i => { twinned.there i with }
    twins := fun i => { twinned.twins i with stashed := rfl } }
  passOn slot call admitted := by
    intro process others twinned
    obtain ⟨same, related⟩ := alike.shared.compile twinned.related call admitted slot.replaced
    unfold Process.passOn
    simp only [same]
    exact ⟨_, fun _ => rfl, over_twinned.move twinned related⟩

end

end

end

end CilCapture.Capture
