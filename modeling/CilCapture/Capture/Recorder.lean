import CilCapture.Body.Assembly
import CilCapture.Capture.ClauseReader
import CilCapture.Capture.Workspace
import CilCapture.Compile.Process

/-!
# Recording captures

The recorder is the callback's side of a session. Armed with a row, it takes the body of each
intercepted compile call: it reads the code, the locals and the clauses, assembles a body, stages
it for the session and claims the call. A staged body replaces the one before. A capture that fails
counts nothing and stages nothing.
-/

namespace CilCapture.Capture

open Engine Compile Body

inductive Phase where
  /-- No compile call of the armed method was seen. -/
  | waiting
  /-- A compile call is being captured. -/
  | dumping
  /-- A body is staged. -/
  | finished
  deriving DecidableEq, Repr

def Phase.name : Phase → String
  | waiting => "Waiting"
  | dumping => "Dumping"
  | finished => "Finished"

structure CaptureRecord where
  row : Nat
  success : Bool
  /-- The code that was captured. -/
  code : Bytes
  /-- Successful captures so far. -/
  total : Nat
  deriving DecidableEq, Repr

def CaptureRecord.token (record : CaptureRecord) : Token := .ofMethod (UInt32.ofNat record.row)

structure StagedBody where
  row : Nat
  body : MethodBody
  deriving DecidableEq, Repr

structure Recorder where
  phase : Phase
  /-- The row that is armed. -/
  targetRow : Option Nat
  /-- Successful captures. -/
  count : Nat
  records : List CaptureRecord
  staged : Option StagedBody
  /-- The routine that tells clauses, once it was located. -/
  clauseReader : Option ClauseReader
  deriving DecidableEq, Repr

namespace Recorder

def fresh : Recorder where
  phase := .waiting
  targetRow := none
  count := 0
  records := []
  staged := none
  clauseReader := none

/-- Arms a row; what is staged is dropped. -/
def arm (row : Nat) (recorder : Recorder) : Recorder :=
  { recorder with staged := none, targetRow := some row, phase := .waiting }

def idle (recorder : Recorder) : Recorder :=
  { recorder with targetRow := none, phase := .waiting }

def recordFailure (row : Nat) (recorder : Recorder) : Recorder :=
  let record := { row, success := false, code := [], total := recorder.count }
  { recorder with records := recorder.records ++ [record] }

/-- Stages a body and notes the success. -/
def stage (row : Nat) (code : Bytes) (body : MethodBody) (recorder : Recorder) : Recorder :=
  { recorder with
    staged := some { row, body }
    count := recorder.count + 1
    records := recorder.records ++ [{ row, success := true, code, total := recorder.count + 1 }]
    phase := .finished }

end Recorder

/-- What a capture depends on beside the recorder. Resolving a token may reach the compiler, so that
a capture can come about within another. -/
structure CaptureRules (M W : Type) where
  resolver : TokenResolver (Errand Abort (Workspace M W))
  flavor : Flavor
  architecture : Architecture

abbrev CaptureStep (M W α : Type) := ExceptT Abort (Response Recorder (Workspace M W)) α

section

variable {M W : Type}

/-- The recorder and the workspace as they are. -/
def current : CaptureStep M W (Recorder × Workspace M W) :=
  ExceptT.lift (.observe fun recorder workspace => .finish (recorder, workspace))

def onRecorder (change : Recorder → Recorder) : CaptureStep M W Unit :=
  ExceptT.lift (.observe fun recorder workspace => .store (change recorder) workspace (.finish ()))

/-- Carries an errand of the workspace out as part of a callback. -/
def Response.ofErrand {C : Type} {ε α : Type} :
    Errand ε W α → Response C W (Except ε α)
  | .done result => .finish result
  | .observe next => .observe fun _ world => ofErrand (next world)
  | .store world next => .observe fun client _ => .store client world (ofErrand next)
  | .compile call next => .compile call fun result => ofErrand (next result)

def onWorkspace {α : Type} (errand : Errand Abort (Workspace M W) α) : CaptureStep M W α :=
  ExceptT.mk (Response.ofErrand errand)

/-- A step that may fail but not break down. -/
def faulting {ρ α : Type} (step : EStateM Fault ρ α) : EStateM Abort ρ α := fun state =>
  match step state with
  | .ok value state => .ok value state
  | .error fault state => .error (.fault fault) state

def reporting (notices : List Notice) : CaptureStep M W Unit :=
  ExceptT.lift (notices.foldr .report (.finish ()))

/-- The local signature of a request for `row`; one that cannot be read is left out. -/
def captureLocals (row : Nat) (request : CompileRequest) : CaptureStep M W (Option Bytes) := do
  if request.localsCount = 0 then return none
  let source := Signature.RawSource.ofPointer request.locals Signature.RawSource.defaultLimit
  match Signature.readLocals request.localsCount.toNat source with
  | .ok blob _ => return some blob
  | .error fault _ =>
    reporting [.localsUnreadable (.ofMethod (UInt32.ofNat row)) fault]
    return none

variable [NativeCode W] [CodeSpace W]

/-- The routine that tells clauses, located when it is first needed. -/
def clauseReader (rules : CaptureRules M W) (jitInfo : Address) : CaptureStep M W ClauseReader := do
  match (← current).1.clauseReader with
  | some reader => return reader
  | none =>
    let reader ←
      onWorkspace (.ofStep (faulting (ClauseReader.locate rules.flavor rules.architecture jitInfo)))
    onRecorder fun recorder => { recorder with clauseReader := some reader }
    return reader

def captureClauses (rules : CaptureRules M W) (jitInfo : Address) (request : CompileRequest) :
    CaptureStep M W (List Clause) := do
  if request.clauseCount = 0 then return []
  let reader ← clauseReader rules jitInfo
  onWorkspace (.ofStep fun workspace =>
    let (clauses, workspace) :=
      reader.read jitInfo request.methodHandle request.clauseCount.toNat workspace
    .ok clauses workspace)

/-- Captures the body of a compile call for `row`. -/
def captureBody (rules : CaptureRules M W) (row : Nat) (event : CompileEvent) :
    CaptureStep M W Unit := do
  onRecorder fun recorder => { recorder with phase := .dumping }
  match event.request? with
  | none => throw (.fault (.hookState .noMethodInfo))
  | some request =>
    let locals ← captureLocals row request
    let clauses ← captureClauses rules event.jitInfo request
    let (body, notices) ← assemble (fun opcode token => onWorkspace (rules.resolver opcode token)) {
      code := request.code
      maxStack := request.maxStack
      initLocals := request.initLocals
      locals
      clauses }
    reporting notices
    if (← current).2.output.isNone then throw (.fault .noOutputModule)
    onRecorder (.stage row request.code body)

/-- The verdict that a capture comes to. -/
def captureVerdict : Except Abort Unit → Verdict
  | .ok () => .claim
  | .error (.fault cause) => .fail cause
  | .error .breakdown => .breakdown

/-- The callback that records: it captures when a row is armed and forwards otherwise. -/
def record (rules : CaptureRules M W) : Callback Recorder (Workspace M W) := fun event =>
  .observe fun recorder _ =>
    match recorder.targetRow with
    | none => .finish (.forward event)
    | some row => captureVerdict <$> (captureBody rules row event).run

end

end CilCapture.Capture
