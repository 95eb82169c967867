import CilCapture.Signature.Locals
import CilCapture.Service.Answer

/-!
# Requests about signatures

Type encodings, compressed integers and local signatures, read from a byte string or from native
memory of which only so much may be read.
-/

namespace CilCapture.Service

open Document

/-- What a signature operation answers on a source, and the source after it. -/
def signatureOn {ρ : Type} [Signature.Reader ρ] (op : String) (request : Document)
    (source : ρ) : Decoded (Fields × ρ) := do
  match op with
  | "sig_skip" =>
    let count ← orElse 1 asNat "count" request
    let (answer, source) := outcome (Signature.times count Signature.Reader.passType source)
    return (resultFields .ofUnit answer, source)
  | "sig_copy" =>
    let out ← bytesAt "out" request
    let (answer, copied) := Signature.copyType source
    let (answer, source) := outcome answer
    return (resultFields .ofUnit answer ++ [("out", .ofBytes (out ++ copied))], source)
  | "sig_uint" =>
    let count ← orElse 1 asNat "count" request
    let (answers, source) := (List.range count).foldl (fun (answers, source) _ =>
      let (answer, source) := outcome (Signature.Reader.integer source)
      (answer :: answers, source)) (([] : List (Except Fault Nat)), source)
    return ([("values", listOf (.ofResult .ofNat) answers.reverse)], source)
  | _ =>
    let count ← natAt "count" request
    let (answer, source) := outcome (Signature.readLocals count source)
    return (resultFields .ofBytes answer, source)

/-- Answers an operation on a source of bytes, and how many it consumed. -/
def signature (op : String) (request : Document) : Decoded Fields := do
  let data ← bytesAt "data" request
  if (← textAt "reader" request) = "raw" then
    let limit ← orElse Signature.RawSource.defaultLimit asNat "limit" request
    let pad := UInt8.ofNat (← natAt "pad" request)
    let null ← boolAt "null" request
    let memory := data ++ List.replicate (limit - data.length) pad
    let source := Signature.RawSource.ofPointer (if null then none else some memory) limit
    let (fields, source) ← signatureOn op request source
    return fields ++ [("consumed", .ofNat source.consumed)]
  else
    let (fields, cursor) ← signatureOn op request (Cursor.ofBytes data)
    return fields ++ [("consumed", .ofNat cursor.position)]

/-- Answers the variables of a local signature. -/
def signatureSplit (request : Document) : Decoded Fields := do
  return resultFields (listOf .ofBytes) (Signature.splitLocals (← bytesAt "data" request))

def signatureBuild (request : Document) : Decoded Fields := do
  return resultFields .ofBytes
    (Signature.buildLocals (← natAt "count" request) (← bytesAt "data" request))

/-- Answers the spelling of a compressed integer behind what is there. -/
def signatureEncode (request : Document) : Decoded Fields := do
  let out ← bytesAt "out" request
  let value ← orElse 0 asWord "value" request
  let (answer, out) := outcome (Signature.appendCompressed value out)
  return resultFields .ofUnit answer ++ [("out", .ofBytes out)]

/-- Answers the tags that are complete encodings. -/
def primitives : Fields :=
  let tags := (List.range 256).filter fun tag => Signature.isPrimitive (UInt8.ofNat tag)
  [("tags", listOf .ofNat tags)]

end CilCapture.Service
