import CilCapture.Service.Signatures
import CilCapture.Service.Sweeps

/-!
# Requests

Every request names an operation. The answer is a record, or a sentence about what is wrong with the
request. What was reported outside of any step stands under the answer's `log`. Where a part of the
answer never came about, or what the request describes cannot be set up, nothing else is told.
-/

namespace CilCapture.Service

open Document

/-- An operation: an answer, and what was reported outside of its steps. -/
abbrev Operation := Document → Decoded (Fields × List Notice)

def quietly (operation : Document → Decoded Fields) : Operation := fun request => do
  return (← operation request, [])

def operations : List (String × Operation) := [
  ("token", quietly token),
  ("tokens", quietly tokens),
  ("parser", quietly parser),
  ("opcodes", quietly opcodes),
  ("decode_il", quietly decodeIl),
  ("encode_il", quietly encodeIl),
  ("body_parse", quietly bodyParse),
  ("body_decode", quietly bodyDecode),
  ("body_encode", quietly bodyEncode),
  ("region_from_clause", quietly regionFromClause),
  ("clause_from_region", quietly clauseFromRegion),
  ("assemble", assemble),
  ("sig_skip", quietly (signature "sig_skip")),
  ("sig_copy", quietly (signature "sig_copy")),
  ("sig_uint", quietly (signature "sig_uint")),
  ("sig_read_locals", quietly (signature "sig_read_locals")),
  ("sig_split", quietly signatureSplit),
  ("sig_build", quietly signatureBuild),
  ("sig_encode_uint", quietly signatureEncode),
  ("sig_primitives", fun _ => .ok (primitives, [])),
  ("version", quietly version),
  ("versions", quietly versions),
  ("environment", quietly environment),
  ("offsets_parse", offsetsParse),
  ("offsets_verify", offsetsVerify),
  ("offsets_require", quietly offsetsRequire),
  ("offsets_load", offsetsLoad),
  ("attach", attach),
  ("convention", quietly convention),
  ("hook_kind", quietly hookKind),
  ("adapter_stub", quietly adapterStub),
  ("absolute_jump", quietly absoluteJump),
  ("convert", quietly convert),
  ("callable", quietly callable),
  ("near_target", quietly nearTarget),
  ("displacement", quietly displacement),
  ("memory", quietly memory),
  ("process_memory", quietly processMemory),
  ("patch_new", quietly patchNew),
  ("patch_capture", quietly patchCapture),
  ("patches", patches),
  ("identity", quietly identity),
  ("identities", quietly identities),
  ("force", quietly force),
  ("native_force", quietly nativeForce),
  ("config", quietly config),
  ("snapshot", quietly snapshot),
  ("request", quietly request),
  ("eh", quietly eh),
  ("filter", quietly filter),
  ("hook", hook),
  ("guards", quietly guards),
  ("dumper", dumper),
  ("detect", quietly detect),
  ("select_cctor", quietly selectConstructor),
  ("fill_signatures", quietly fillSignatures),
  ("sweep", sweep)]

def perform (request : Document) : Decoded Fields := do
  let name ← textAt "op" request
  match operations.lookup name with
  | none => throw (.malformed ("unknown operation " ++ name))
  | some operation =>
    let (fields, notices) ← operation request
    return fields ++ noticeFields notices

/-- The answer where an operation did not return. -/
def noAnswer : Document := .record [("error", "panic")]

def answer (request : Document) : Document :=
  match perform request with
  | .ok fields => if anyEntryBroken fields then noAnswer else .record fields
  | .error (.malformed reason) => .record [("error", "BadInput"), ("message", reason)]
  | .error .breakdown => noAnswer

end CilCapture.Service
