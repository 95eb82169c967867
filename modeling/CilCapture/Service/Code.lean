import CilCapture.Rehearsal.Script
import CilCapture.Service.Answer

/-!
# Requests about code

Tokens, cursors, instruction streams, stored bodies and their exception regions.
-/

namespace CilCapture.Service

open Document

namespace Document

/-- An operand: null, or one entry named for its form. -/
def ofOperand : Il.Operand → Document
  | .none => .null
  | .int8 value => Document.record [("i8", .ofInt value.toInt)]
  | .uint8 value => Document.record [("u8", .ofNat value.toNat)]
  | .uint16 value => Document.record [("u16", .ofNat value.toNat)]
  | .int32 value => Document.record [("i32", .ofInt value.toInt)]
  | .int64 value => Document.record [("i64", .text (signedDecimal value.toInt))]
  | .float32 bits => Document.record [("f32", .text ("0x" ++ hex 8 bits.toNat))]
  | .float64 bits => Document.record [("f64", .text ("0x" ++ hex 16 bits.toNat))]
  | .token token => Document.record [("token", .ofToken token)]
  | .target index => Document.record [("target", .ofNat index)]
  | .switch indices => Document.record [("switch", listOf .ofNat indices)]

def asOperand (request : Document) : Decoded Il.Operand := do
  match request with
  | .null => return .none
  | _ =>
    if let some value := field? "i8" request then return .int8 (Int8.ofInt (← asInt value))
    if let some value := field? "u8" request then return .uint8 (UInt8.ofNat (← asNat value))
    if let some value := field? "u16" request then return .uint16 (UInt16.ofNat (← asNat value))
    if let some value := field? "i32" request then return .int32 (Int32.ofInt (← asInt value))
    if let some value := field? "i64" request then return .int64 (Int64.ofInt (← asInt value))
    if let some value := field? "f32" request then return .float32 (UInt32.ofNat (← asNat value))
    if let some value := field? "f64" request then return .float64 (UInt64.ofNat (← asNat value))
    if let some value := field? "token" request then return .token (← asToken value)
    if let some value := field? "target" request then return .target (← asNat value)
    if let some value := field? "switch" request then
      return .switch (← (← asList value).mapM asNat)
    throw (.malformed "operand expected")

def ofInstruction (instruction : Il.Instruction) : Document := Document.record [
  ("op", instruction.opcode.name),
  ("offset", .ofNat instruction.offset.toNat),
  ("size", .ofNat instruction.size),
  ("operand", .ofOperand instruction.operand)]

/-- Reads an instruction by the value of its opcode; it stands at no offset yet. -/
def asInstruction (request : Document) : Decoded Il.Instruction := do
  let value ← natAt "value" request
  match Il.Opcode.ofValue? (UInt16.ofNat value) with
  | none => throw (.malformed "opcode expected")
  | some opcode =>
    return { opcode, offset := 0, operand := ← orElse .none asOperand "operand" request }

def ofClause (clause : Body.Clause) : Document :=
  listOf (fun word => .ofNat word.toNat) clause.words

def asClause (request : Document) : Decoded Body.Clause := do
  match ← (← asList request).mapM asWord with
  | [flags, tryOffset, tryLength, handlerOffset, handlerLength, classOrFilter] =>
    return { flags, tryOffset, tryLength, handlerOffset, handlerLength, classOrFilter }
  | _ => throw (.malformed "clause expected")

def ofRegion (region : Body.Region) : Document :=
  let kind : Document :=
    match region.handler with
    | .typed class_ => Document.record [("catch", .ofToken class_)]
    | .filter start => Document.record [("filter", .ofNat start)]
    | .finallyHandler => "finally"
    | .faultHandler => "fault"
  Document.record [
    ("kind", kind),
    ("try", .list [.ofNat region.tryStart, orNull .ofNat region.tryEnd]),
    ("handler", .list [.ofNat region.handlerStart, orNull .ofNat region.handlerEnd])]

def asRegion (request : Document) : Decoded Body.Region := do
  let handler ←
    match field? "kind" request with
    | some (.text "finally") => pure Body.Handler.finallyHandler
    | some (.text "fault") => pure Body.Handler.faultHandler
    | some kind =>
      match field? "catch" kind, field? "filter" kind with
      | some token, _ => pure (Body.Handler.typed (← asToken token))
      | none, some start => pure (Body.Handler.filter (← asNat start))
      | none, none => throw (.malformed "kind expected")
    | none => throw (.malformed "kind expected")
  let (tryStart, tryEnd) ← required (pairOf asNat (nullable asNat)) "try" request
  let (handlerStart, handlerEnd) ← required (pairOf asNat (nullable asNat)) "handler" request
  return { handler, tryStart, tryEnd, handlerStart, handlerEnd }

def ofBody (body : Body.MethodBody) : Document := Document.record [
  ("max_stack", .ofNat body.maxStack.toNat),
  ("init_locals", body.initLocals),
  ("local_signature", orNull .ofBytes body.localSignature),
  ("instructions", listOf .ofInstruction body.instructions),
  ("regions", listOf .ofRegion body.regions),
  ("code_size", .ofNat body.codeSize)]

def asTokenMap (request : Document) : Decoded Rehearsal.TokenMap := do
  return {
    breaking := ← listAt asToken "panic" request
    refused := ← listAt asToken "fail" request
    images := ← listAt (pairOf asToken asToken) "map" request
    distance := ← orElse 0 asWord "add" request }

end Document

def token (request : Document) : Decoded Fields := do
  let row ← orElse 0 asWord "row" request
  let token : Token ←
    match ← optional asToken "value" request with
    | some token => pure token
    | none =>
      if (← textAt "kind" request) = "method" then pure (Token.ofMethod row)
      else pure (Token.ofParts (UInt8.ofNat (← natAt "table" request)) row)
  return [
    ("value", .ofNat token.value.toNat),
    ("table", .ofNat token.table.toNat),
    ("row", .ofNat token.row.toNat),
    ("null", token.isNull),
    ("display", token.text),
    ("debug", token.describe)]

def tokens (request : Document) : Decoded Fields := do
  let values ← listAt asToken "values" request
  return [("sorted", listOf .ofToken (values.mergeSort fun a b => a.value ≤ b.value))]

/-- What a step on a cursor answers. -/
def cursorStep (name : String) (argument : Document) (cursor : Cursor) :
    Decoded (Except Abort Document × Cursor) := do
  let run {α : Type} (encode : α → Document) (step : EStateM Fault Cursor α) :
      Except Abort Document × Cursor :=
    match step cursor with
    | .ok value cursor => (.ok (encode value), cursor)
    | .error fault cursor => (.error (.fault fault), cursor)
  let number (width : Nat) (encode : Nat → Document) := run encode (Cursor.number width)
  match name with
  | "u8" => return number 1 .ofNat
  | "u16" => return number 2 .ofNat
  | "u32" => return number 4 .ofNat
  | "u64" => return number 8 fun value => .text (decimal value)
  | "i8" => return number 1 fun value => .ofInt (UInt8.ofNat value).toInt8.toInt
  | "i16" => return number 2 fun value => .ofInt (UInt16.ofNat value).toInt16.toInt
  | "i32" => return number 4 fun value => .ofInt (UInt32.ofNat value).toInt32.toInt
  | "i64" => return number 8 fun value => .text (signedDecimal (UInt64.ofNat value).toInt64.toInt)
  | "f32" => return number 4 fun value => .text ("0x" ++ hex 8 value)
  | "f64" => return number 8 fun value => .text ("0x" ++ hex 16 value)
  | "compressed" => return run .ofNat Cursor.integer
  | "peek" =>
    return (match cursor.peek with
      | .ok byte => (.ok (.ofNat byte.toNat), cursor)
      | .error fault => (.error (.fault fault), cursor))
  | "bytes" => return run .ofBytes (Cursor.bytes (← asNat argument))
  | "seek" => return run .ofUnit (Cursor.seek (← asNat argument))
  | "advance" => return run .ofUnit (Cursor.advance (← asNat argument))
  | "align" =>
    return (match Cursor.align (← asNat argument) cursor with
      | .ok () cursor => (.ok .null, cursor)
      | .error abort cursor => (.error abort, cursor))
  | "type" => return run .ofUnit Signature.Reader.passType
  | "info" =>
    let data := cursor.data
    return (.ok (.list [.ofNat data.length, data.isEmpty, .ofBytes data]), cursor)
  | _ => throw (.malformed "unknown step")

/-- Answers steps on a cursor, each with the place after it. -/
def parser (request : Document) : Decoded Fields := do
  let data ← bytesAt "data" request
  let (answers, _) ← runSteps (fun name arguments cursor => do
    let (answer, cursor) ← cursorStep name (itemAt 0 arguments) cursor
    let fields : Fields :=
      match answer with
      | .ok value => [("ok", value)]
      | .error (.fault fault) => faultFields fault
      | .error .breakdown => brokenDown
    return (fields ++ [("pos", .ofNat cursor.position), ("remaining", .ofNat cursor.remaining),
      ("more", Document.flag cursor.hasMore)], cursor)) (← stepsAt request) (Cursor.ofBytes data)
  return [("steps", .list answers)]

/-- Answers the opcodes in a range of values. -/
def opcodes (request : Document) : Decoded Fields := do
  let first ← natAt "from" request
  let last ← natAt "to" request
  let found := (List.range' first (last + 1 - first)).filterMap fun value =>
    Il.Opcode.ofValue? (UInt16.ofNat value)
  return [("opcodes", listOf (fun opcode => .list [
    .ofNat opcode.value.toNat, opcode.name, opcode.operand.name, .ofNat opcode.operand.size,
    .ofNat opcode.size, opcode.isTwoByte, .ofBytes opcode.encode]) found)]

def decodeIl (request : Document) : Decoded Fields := do
  let code ← bytesAt "il" request
  return fieldsOr (fun instructions => [
    ("instructions", listOf .ofInstruction instructions),
    ("layout", listOf .ofNat (Il.layout instructions)),
    ("tokens", listOf .ofToken (instructions.filterMap Il.Instruction.token?)),
    ("encoded", .ofResult .ofBytes (Il.encode instructions))]) (Il.decode code)

/-- An edit of a list of instructions; an index outside of the list is an overrun. -/
def asEdit (request : Document) :
    Decoded (List Il.Instruction → Except Fault (List Il.Instruction)) := do
  let (name, arguments) ← stepParts request
  let index ← asNat (itemAt 0 arguments)
  match name with
  | "operand" =>
    let operand ← asOperand (itemAt 1 arguments)
    return fun instructions =>
      if index < instructions.length then
        .ok (instructions.modify index fun instruction => { instruction with operand })
      else .error .overrun
  | "insert" =>
    let instruction ← asInstruction (itemAt 1 arguments)
    return fun instructions =>
      if index ≤ instructions.length then .ok (instructions.insertIdx index instruction)
      else .error .overrun
  | "remove" =>
    return fun instructions =>
      if index < instructions.length then .ok (instructions.eraseIdx index) else .error .overrun
  | _ => throw (.malformed "unknown edit")

/-- The instructions of a request, or the fault of decoding or editing them. -/
def asInstructions (request : Document) : Decoded (Except Fault (List Il.Instruction)) := do
  let start ←
    match ← optional asBytes "il" request with
    | some code => pure (Il.decode code)
    | none => pure (.ok (← listAt asInstruction "instructions" request))
  let edits ← listAt asEdit "edits" request
  return edits.foldl (fun instructions edit => instructions >>= edit) start

def encodeIl (request : Document) : Decoded Fields := do
  return fieldsOr (fun instructions => [
    ("layout", listOf .ofNat (Il.layout instructions)),
    ("encoded", .ofResult .ofBytes (Il.encode instructions))]) (← asInstructions request)

/-- Answers the parts of a stored body. -/
def bodyParse (request : Document) : Decoded Fields := do
  return resultFields (fun raw => Document.record [
    ("max_stack", .ofNat raw.maxStack.toNat),
    ("init_locals", raw.initLocals),
    ("token", .ofToken raw.localsToken),
    ("header_size", .ofNat raw.headerSize),
    ("code", .ofBytes raw.code),
    ("clauses", listOf .ofClause raw.clauses)]) (Body.RawBody.parse (← bytesAt "data" request))

def bodyDecode (request : Document) : Decoded Fields := do
  return resultFields .ofBody (Body.MethodBody.decode (← bytesAt "data" request))

/-- Answers the bytes of a body, and the body that they hold. -/
def bodyEncode (request : Document) : Decoded Fields := do
  let instructions ← asInstructions request
  let maxStack := UInt16.ofNat (← natAt "max_stack" request)
  let initLocals ← boolAt "init_locals" request
  let localSignature ← optional asBytes "local_signature" request
  let regions ← listAt asRegion "regions" request
  let token ← orElse .null asToken "token" request
  return fieldsOr id do
    let instructions ← instructions
    let body : Body.MethodBody := { maxStack, initLocals, localSignature, instructions, regions }
    let data ← body.encode token
    return [
      ("data", .ofBytes data),
      ("code_size", .ofNat body.codeSize),
      ("decoded", .ofResult .ofBody (Body.MethodBody.decode data))]

/-- Answers the region of a clause, and the clause of that. -/
def regionFromClause (request : Document) : Decoded Fields := do
  let offsets ← listAt asNat "offsets" request
  let clause ← required asClause "clause" request
  let region := Body.Region.ofClause clause offsets
  return resultFields (fun region => Document.record [
    ("region", .ofRegion region),
    ("back", .ofResult .ofClause (region.toClause offsets))]) region ++
    [("flags", .ofNat clause.knownFlags.toNat)]

def clauseFromRegion (request : Document) : Decoded Fields := do
  let offsets ← listAt asNat "offsets" request
  let region ← required asRegion "region" request
  return resultFields .ofClause (region.toClause offsets)

/-- Answers the body of loose parts, and what the resolver was asked. -/
def assemble (request : Document) : Decoded (Fields × List Notice) := do
  let parts : Body.Parts := {
    code := ← bytesAt "il" request
    maxStack := ← orElse 0 asWord "max_stack" request
    initLocals := ← boolAt "init_locals" request
    locals := ← optional asBytes "locals" request
    clauses := ← listAt asClause "clauses" request }
  let token ← orElse .null asToken "token" request
  let closure ← boolAt "closure" request
  let resolver : Body.TokenResolver (EStateM Abort (List (Il.Opcode × Token))) ←
    match ← optional asTokenMap "resolver" request with
    | some map => pure map.notingResolver
    | none =>
      if closure then pure (← asTokenMap (Document.record [])).notingResolver
      else pure .identity
  let resolved (asked : List (Il.Opcode × Token)) : Fields :=
    [("resolved", listOf (fun (opcode, token) => .list [opcode.name, .ofToken token]) asked)]
  match Body.assemble resolver parts [] with
  | .ok (body, notices) asked =>
    return ([("body", .ofBody body), ("encoded", .ofResult .ofBytes (body.encode token))] ++
      resolved asked, notices)
  | .error (.fault fault) asked => return (faultFields fault ++ resolved asked, [])
  | .error .breakdown _ => return (brokenDown, [])

end CilCapture.Service
