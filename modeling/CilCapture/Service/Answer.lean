import CilCapture.Notice
import CilCapture.Service.Document

/-!
# Answers

An answer is a record. A value that came about stands under `ok`, a fault is told by its kind and
its wording; what was reported meanwhile stands under `log`. No answer tells of an overrun: it ends
the request as a whole.
-/

namespace CilCapture.Service

open Document

def faultKind : Fault → String
  | .malformed _ => "Malformed"
  | .outOfBounds => "OutOfBounds"
  | .unsupportedArchitecture _ => "UnsupportedArchitecture"
  | .unsupportedRuntime _ => "UnsupportedRuntime"
  | .unsupportedConvention _ _ => "UnsupportedConvention"
  | .versionMismatch _ _ _ => "VersionMismatch"
  | .missingOffset _ => "MissingOffset"
  | .patchMismatch _ _ _ => "PatchMismatch"
  | .hookState _ => "HookState"
  | .hookActive => "HookActive"
  | .displacementOutOfRange _ _ => "DisplacementOutOfRange"
  | .memory _ _ => "Memory"
  | .capture _ _ => "Capture"
  | .captureCountMismatch _ _ => "CaptureCountMismatch"
  | .noOutputModule => "NoOutputModule"
  | .nativeFault _ => "NativeFault"
  | .file => "FileError"
  | .imageHeader => "GoblinErr"
  | .notAFunctionPointer | .unknownHookKind _ | .overrun | .other _ => "Error"

/-- The answer of what did not return. -/
def brokenDown : Fields := [("error", .broken)]

/-- A fault: its kind, its wording where that depends on the input alone, and its source. -/
def faultFields : Fault → Fields
  | .overrun => brokenDown
  | .malformed cause => [("error", "Malformed"), ("message", cause.message)]
  | .outOfBounds => [("error", "OutOfBounds")]
  | .file => [("error", "FileError")]
  | .imageHeader => [("error", "GoblinErr")]
  | fault@(.capture _ source) =>
    [("error", "Capture"), ("message", fault.message), ("source", .record (faultFields source))]
  | fault => [("error", faultKind fault), ("message", fault.message)]

def resultFields {α : Type} (write : α → Document) : Except Fault α → Fields
  | .ok value => [("ok", write value)]
  | .error fault => faultFields fault

/-- A value's own entries, or those of a fault. -/
def fieldsOr {α : Type} (write : α → Fields) : Except Fault α → Fields
  | .ok value => write value
  | .error fault => faultFields fault

namespace Document

/-- What is seen of memory, null where nothing is mapped. -/
def seen {α : Type} (write : α → Document) : Except Fault α → Document
  | .ok value => write value
  | .error .overrun => .broken
  | .error _ => .null

def ofFault (fault : Fault) : Document := .record (faultFields fault)

def ofResult {α : Type} (write : α → Document) (result : Except Fault α) : Document :=
  .record (resultFields write result)

def ofNotice (notice : Notice) : Document :=
  if anyEntryBroken ((notice.cause?.map faultFields).getD []) then .broken
  else
    .text ((match notice.level with
      | .warning => "WARN "
      | .error => "ERROR ") ++ notice.message)

end Document

def noticeFields : List Notice → Fields
  | [] => []
  | notices => [("log", listOf .ofNotice notices)]

/-- The result of a step, and the state after it. -/
def outcome {σ α : Type} : EStateM.Result Fault σ α → Except Fault α × σ
  | .ok value state => (.ok value, state)
  | .error fault state => (.error fault, state)

/-- The answers of steps in order, and the state after them. -/
def runSteps {σ : Type} (step : String → List Document → σ → Decoded (Fields × σ)) :
    List Document → σ → Decoded (List Document × σ)
  | [], state => return ([], state)
  | request :: rest, state => do
    let (name, arguments) ← stepParts request
    let (fields, state) ← step name arguments state
    let (answers, state) ← runSteps step rest state
    return (.record fields :: answers, state)

end CilCapture.Service
