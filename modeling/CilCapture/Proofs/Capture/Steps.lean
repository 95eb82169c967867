import CilCapture.Capture.Recorder
import CilCapture.Proofs.Compile.Journal

/-!
# The steps of a capture

A capture first gathers a body and then puts it where the session finds it (`captureBody_eq`). A
property of capture steps that does not get lost on the way from one to the next (`Closed`) holds of
all the gathering (`Closed.gather`), so that only the last step has to be looked at by itself.

`Closed` has two sets of rules, so that the same induction serves for properties of one recorder and
for comparisons of two. For a property of one recorder both are the same rules.
-/

namespace CilCapture.Capture

open Engine Compile Body

variable {M W : Type} [NativeCode W] [CodeSpace W]

/-! ## Gathering and depositing -/

/-- Makes a body of what a compile call for `row` asks for. -/
def gather (rules : CaptureRules M W) (row : Nat) (event : CompileEvent) :
    CaptureStep M W (CompileRequest × MethodBody) := do
  onRecorder fun recorder => { recorder with phase := .dumping }
  match event.request? with
  | none => throw (.fault (.hookState .noMethodInfo))
  | some request =>
    let locals ← captureLocals row request
    let clauses ← captureClauses rules event.jitInfo request
    let (body, notices) ← assemble (fun opcode token => onWorkspace (rules.resolver opcode token)) {
      code := request.code
      maxStack := request.maxStack
      initLocals := request.initLocals
      locals
      clauses }
    reporting notices
    return (request, body)

/-- Stages a body that was gathered, if there is a module to receive it. -/
def deposit (row : Nat) (gathered : CompileRequest × MethodBody) : CaptureStep M W Unit := do
  if (← current).2.output.isNone then throw (.fault .noOutputModule)
  onRecorder (.stage row gathered.1.code gathered.2)

/-- A capture is the gathering of a body and its staging; everything that can call back is in the
first part. -/
theorem captureBody_eq (rules : CaptureRules M W) (row : Nat) (event : CompileEvent) :
    captureBody rules row event = gather rules row event >>= deposit row := by
  unfold captureBody gather deposit
  cases event.request? with
  | none =>
    simp only [bind_assoc]
    rfl
  | some request => simp only [bind_assoc, pure_bind]

/-! ## Properties of steps -/

/-- What holds of the elementary steps of a capture through an interface, by two sets of rules side
by side, and passes to longer ones. -/
structure Closed (rules rules' : CaptureRules M W) (jitInfo : Address)
    (P : ∀ α : Type, CaptureStep M W α → CaptureStep M W α → Prop) : Prop where
  pure : ∀ {α : Type} (value : α), P α (pure value) (pure value)
  throw : ∀ {α : Type} (abort : Abort), P α (throw abort) (throw abort)
  bind : ∀ {α β : Type} {step step' : CaptureStep M W α} {next next' : α → CaptureStep M W β},
    P α step step' → (∀ value, P β (next value) (next' value)) →
      P β (step >>= next) (step' >>= next')
  begins : P _ (onRecorder fun recorder => { recorder with phase := .dumping })
    (onRecorder fun recorder => { recorder with phase := .dumping })
  reporting : ∀ notices, P _ (reporting notices) (reporting notices)
  clauses : ∀ request, P _ (captureClauses rules jitInfo request)
    (captureClauses rules' jitInfo request)
  resolve : ∀ opcode token, P _ (onWorkspace (rules.resolver opcode token))
    (onWorkspace (rules'.resolver opcode token))

/-- Clauses are told by steps that look at the state, locate and keep a reader, and read. -/
theorem captureClauses_inherits {rules : CaptureRules M W} {jitInfo : Address}
    {P : ∀ α : Type, CaptureStep M W α → Prop}
    (pure : ∀ {α : Type} (value : α), P α (pure value))
    (bind : ∀ {α β : Type} {step : CaptureStep M W α} {next : α → CaptureStep M W β},
      P α step → (∀ value, P β (next value)) → P β (step >>= next))
    (current : P _ current)
    (keepReader : ∀ reader,
      P _ (onRecorder fun recorder => { recorder with clauseReader := some reader }))
    (locate : P _ (onWorkspace
      (.ofStep (faulting (ClauseReader.locate rules.flavor rules.architecture jitInfo)))))
    (read : ∀ (reader : ClauseReader) method count, P _ (onWorkspace (.ofStep fun workspace =>
      .ok (reader.read jitInfo method count workspace).1
        (reader.read jitInfo method count workspace).2)))
    (request : CompileRequest) : P _ (captureClauses rules jitInfo request) := by
  have reader : P _ (clauseReader rules jitInfo) := by
    unfold Capture.clauseReader
    refine bind current fun state => ?_
    split
    next => exact pure _
    next => exact bind locate fun reader => bind (keepReader reader) fun _ => pure _
  unfold Capture.captureClauses
  split
  next => exact pure _
  next => exact bind reader fun reader => read reader request.methodHandle request.clauseCount.toNat

namespace Closed

variable {rules rules' : CaptureRules M W} {jitInfo : Address}
variable {P : ∀ α : Type, CaptureStep M W α → CaptureStep M W α → Prop}

/-- A settled result is a step of its own kind. -/
theorem liftFault (closed : Closed rules rules' jitInfo P) {α : Type} (result : Except Fault α) :
    P α (liftFault result) (Body.liftFault result) := by
  cases result with
  | ok value => exact closed.pure value
  | error fault => exact closed.throw _

/-- The resolver is all that resolving a stream does. -/
theorem resolveInstructions (closed : Closed rules rules' jitInfo P)
    (instructions : List Il.Instruction) :
    P _ (resolveInstructions (fun opcode token => onWorkspace (rules.resolver opcode token))
        instructions)
      (Body.resolveInstructions (fun opcode token => onWorkspace (rules'.resolver opcode token))
        instructions) := by
  have one (instruction : Il.Instruction) :
      P _ (resolveInstruction (fun opcode token => onWorkspace (rules.resolver opcode token))
          instruction)
        (resolveInstruction (fun opcode token => onWorkspace (rules'.resolver opcode token))
          instruction) := by
    unfold resolveInstruction
    split
    next =>
      split
      next => exact closed.pure _
      next => exact closed.bind (closed.resolve _ _) fun _ => closed.pure _
    next => exact closed.pure _
  induction instructions with
  | nil => exact closed.pure _
  | cons instruction rest ih =>
    exact closed.bind (one instruction) fun _ => closed.bind ih fun _ => closed.pure _

/-- An assembler is made of settled results and of questions to the resolver. -/
theorem assemble (closed : Closed rules rules' jitInfo P) (parts : Parts) :
    P _ (assemble (fun opcode token => onWorkspace (rules.resolver opcode token)) parts)
      (Body.assemble (fun opcode token => onWorkspace (rules'.resolver opcode token)) parts) := by
  unfold Body.assemble
  rcases keepLocals parts.locals with ⟨localSignature, notices⟩
  -- The check of the stack is the same on both sides, and so is what follows it in either case.
  by_cases deep : 0xFFFF < parts.maxStack
  on_goal 1 =>
    rw [if_pos deep, if_pos deep]
    refine closed.bind (closed.throw _) fun _ => ?_
  on_goal 2 => rw [if_neg deep, if_neg deep]
  all_goals
    refine closed.bind (closed.liftFault _) fun instructions => ?_
    refine closed.bind (closed.resolveInstructions _) fun resolved => ?_
    refine closed.bind (closed.liftFault _) fun regions => ?_
    exact closed.pure _

/-- The locals are read without any call; what cannot be read is reported. -/
theorem captureLocals (closed : Closed rules rules' jitInfo P) (row : Nat)
    (request : CompileRequest) :
    P _ (captureLocals row request) (Capture.captureLocals row request) := by
  unfold Capture.captureLocals
  split
  next => exact closed.pure _
  next =>
    dsimp only
    split
    next => exact closed.pure _
    next => exact closed.bind (closed.reporting _) fun _ => closed.pure _

/-- So it holds of whatever a capture does before it deposits a body. -/
theorem gather {event : CompileEvent} (closed : Closed rules rules' event.jitInfo P) (row : Nat) :
    P _ (gather rules row event) (Capture.gather rules' row event) := by
  unfold Capture.gather
  refine closed.bind closed.begins fun _ => ?_
  cases event.request? with
  | none => exact closed.throw _
  | some request =>
    refine closed.bind (closed.captureLocals _ _) fun locals => ?_
    refine closed.bind (closed.clauses _) fun clauses => ?_
    refine closed.bind (closed.assemble _) fun assembled => ?_
    exact closed.bind (closed.reporting _) fun _ => closed.pure _

end Closed

end CilCapture.Capture
