import CilCapture.Engine.Offsets
import CilCapture.Hook.Site
import CilCapture.Service.Memory

/-!
# Requests about the engine

Versions, environments, offset tables, and the code that adapts calls to it.
-/

namespace CilCapture.Service

open Document

namespace Document

def asArchitecture : Document → Decoded Engine.Architecture
  | .text "x86" => .ok .x86
  | .text "x64" => .ok .x64
  | _ => .error (.malformed "architecture expected")

def architectureAt (request : Document) : Decoded Engine.Architecture :=
  orElse .x64 asArchitecture "arch" request

/-- The modules of an environment; parsing their versions may fail in the library. -/
def asModules (request : Document) : Decoded (Except Fault Engine.Modules) := do
  let version ← textAt "version" request
  let compilerVersion ← orElse version asText "jit_version" request
  let engineBase ← orElse 0x10000000 asNat "clr_base" request
  let compilerBase ← orElse 0x20000000 asNat "jit_base" request
  let compilerInstance ← orElse 0x20002000 asNat "jit_instance" request
  return do
    let engineVersion ← Engine.Version.parse version
    let compilerVersion ← Engine.Version.parse compilerVersion
    return { engineBase, engineVersion, compilerBase, compilerVersion, compilerInstance }

/-- Reads an environment; classifying it may fail. -/
def asEnvironment (request : Document) : Decoded (Except Fault Engine.Environment) := do
  let architecture ← architectureAt request
  let modules ← asModules request
  return do Engine.Environment.classify architecture (← modules)

/-- Reads what the engine answers about methods. -/
def asAnswers (request : Document) : Decoded Rehearsal.Answers := do
  return {
    valueTypes := ← listAt asNat "value_types" request
    unknown := ← listAt asNat "unknown" request
    broken := ← listAt asNat "broken" request
    instantiating := ← numberedAt asNat "inst" request
    unboxing := ← numberedAt asNat "unbox" request }

def asFlavor : Document → Decoded Engine.Flavor
  | .text "2x" => .ok .v2
  | .text "40x" => .ok .v40
  | .text "45x" => .ok .v45
  | _ => .error (.malformed "flavor expected")

/-- The generation of a request, the latest one if it names none. -/
def flavorAt (request : Document) : Decoded Engine.Flavor :=
  orElse .v45 asFlavor "flavor" request

def asConvention (request : Document) : Decoded Engine.Convention := do
  match Engine.Convention.ofName? (← asText request) with
  | some convention => return convention
  | none => throw (.malformed "convention expected")

def asIntent (request : Document) : Decoded Engine.PatchIntent := do
  let text ← asText request
  match [Engine.PatchIntent.noInline, .suppressStaticInit, .allowGenericShells].find?
      (·.name == text) with
  | some intent => return intent
  | none => throw (.malformed "intent expected")

def asLayout : Document → Decoded Engine.InfoLayout
  | .text "V20" => .ok .v20
  | _ => .ok .v40

def ofTable (table : Engine.OffsetTable) : Document := Document.record [
  ("clr", table.engineVersion.text),
  ("jit", table.compilerVersion.text),
  ("values", listOf (fun value => .ofNat value.toNat) table.values),
  ("text", table.text)]

end Document

def version (request : Document) : Decoded Fields := do
  return fieldsOr (fun version => [
    ("parts", listOf (fun part => .ofNat part.toNat) version.parts),
    ("display", version.text),
    ("flavor", .ofResult (fun flavor => .text flavor.name) (Engine.Flavor.ofVersion version))])
    (Engine.Version.parse (← textAt "text" request))

def versions (request : Document) : Decoded Fields := do
  let texts ← listAt asText "values" request
  return fieldsOr (fun versions => [
    ("sorted", listOf (fun version => .text version.text)
      (versions.mergeSort fun a b => !Engine.Version.before b a))])
    (texts.mapM Engine.Version.parse)

def layoutName : Engine.InfoLayout → String
  | .v20 => "V20"
  | .v40 => "V40"

def environment (request : Document) : Decoded Fields := do
  return fieldsOr (fun environment => [
    ("architecture", environment.architecture.name),
    ("flavor", environment.flavor.name),
    ("clr4x", environment.flavor.isV4),
    ("tag", environment.flavor.tag),
    ("pointer_size", .ofNat environment.pointerSize),
    ("compile_method", environment.compileMethodConvention.name),
    ("comp_compile", environment.compCompileConvention.name),
    ("layout", layoutName environment.layout),
    ("file_name", Engine.OffsetTable.fileName environment.architecture environment.flavor)])
    (← asEnvironment request)

def offsetsParse (request : Document) : Decoded (Fields × List Notice) := do
  let (table, notices) := Engine.OffsetTable.parse (← textAt "text" request)
  return (resultFields .ofTable table, notices)

/-- Answers whether an offset table is for the loaded modules. -/
def offsetsVerify (request : Document) : Decoded (Fields × List Notice) := do
  let (table, notices) := Engine.OffsetTable.parse (← textAt "text" request)
  let modules ← asModules request
  return (resultFields .ofUnit (do (← table).verify (← modules)), notices)

/-- Answers an offset that must not be zero. -/
def offsetsRequire (request : Document) : Decoded Fields := do
  return resultFields (fun offset => .ofNat offset.toNat)
    (Engine.requireOffset (← orElse 0 asWord "offset" request) (← textAt "key" request))

/-- Reads a file: its name, and its text or its bytes. -/
def asFile (request : Document) : Decoded (String × Bytes) := do
  let items ← asList request
  let name ← asText (itemAt 0 items)
  match itemAt 1 items with
  | .text content => return (name, content.toUTF8.toList)
  | _ => return (name, ← asBytes (itemAt 2 items))

/-- Reads a directory; of two files of one name the later one counts. -/
def asDirectory (request : Document) : Decoded (String → Option Bytes) := do
  let files ← listAt asFile "files" request
  return fun name => files.reverse.lookup name

/-- Answers the offset table of an engine. -/
def offsetsLoad (request : Document) : Decoded (Fields × List Notice) := do
  let directory ← asDirectory request
  match ← asEnvironment request with
  | .error fault => return (faultFields fault, [])
  | .ok environment =>
    let (table, notices) := Engine.OffsetTable.load directory environment
    return (resultFields .ofTable table, notices)

def convention (request : Document) : Decoded Fields := do
  return [("ok", orNull (fun convention => .text (Engine.Convention.name convention))
    (Engine.Convention.ofName? (← textAt "text" request)))]

/-- Answers the kind of redirect of a name. -/
def hookKind (request : Document) : Decoded Fields := do
  let text ← textAt "text" request
  return resultFields (fun kind => .text kind.name) (Hook.HookKind.parse text)

def adapterStub (request : Document) : Decoded Fields := do
  let source ← required asConvention "from" request
  let called ← required asConvention "to" request
  return resultFields (orNull .ofBytes)
    (Engine.adapter source called (← orElse 0 asWord "target" request))

def absoluteJump (request : Document) : Decoded Fields := do
  return [("ok", .ofBytes (Engine.absoluteJump (← natAt "target" request)))]

def emptyWorld : Rehearsal.World := .ofMemory ⟨.empty, [], []⟩

/-- Answers how an address is converted between conventions. New code stands before zeros. -/
def convert (request : Document) : Decoded Fields := do
  let architecture ← architectureAt request
  let address ← natAt "address" request
  let called ← required asConvention "to" request
  let size ← natAt "stub_size" request
  let step : EStateM Fault Rehearsal.World Address ←
    match ← optional asConvention "from" request with
    | some source => pure (Engine.convert architecture address source called)
    | none => pure (Engine.nativeAddress architecture address called)
  let (answer, world) := outcome (step emptyWorld)
  return resultFields (fun converted =>
    match world.placedAt? converted with
    | some code => .ofBytes ((code ++ Bytes.zeros (size - code.length)).take size)
    | none => "unchanged") answer

/-- Answers where a native routine can be called. -/
def callable (request : Document) : Decoded Fields := do
  let architecture ← architectureAt request
  let size ← natAt "size" request
  let address ← natAt "address" request
  let source ← required asConvention "from" request
  let (answer, _) := outcome (Engine.callable architecture size address source emptyWorld)
  return resultFields .ofAddress answer

/-- Answers what a relative call reaches, and the jump placed for it. -/
def nearTarget (request : Document) : Decoded Fields := do
  let memory ← asMemory request
  let target ← natAt "target" request
  let (answer, memory) := outcome
    (Engine.nearTarget (← architectureAt request) (← natAt "site" request) target memory)
  return resultFields (fun address =>
    let stub :=
      if address = target then none
      else (Memory.AddressSpace.read address Engine.absoluteJumpSize memory).toOption
    .list [.ofAddress address, orNull .ofBytes stub]) answer

/-- Answers the displacement that reaches an address. -/
def displacement (request : Document) : Decoded Fields := do
  let operand ← natAt "operand" request
  return resultFields .ofInt (Hook.displacementTo operand (← natAt "target" request))

end CilCapture.Service
