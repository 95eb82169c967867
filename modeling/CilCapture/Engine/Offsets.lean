import CilCapture.Engine.Environment
import CilCapture.Notice

/-!
# Offset tables

Where the routines and patch sites of one build of the engine lie, relative to their module. A
table is text, one assignment a line: the two versions it was made for and an offset for every
`Site`, in hexadecimal. The names of the offsets and their values are lists in the same order; when
a table is read, each name says itself whose offset it gives. The last assignment of a name counts;
names that are not known are passed over with a notice; every name must occur.
-/

namespace CilCapture.Engine

/-- A routine or patch site of the engine. -/
inductive Site where
  | reset
  | doPrestub
  | getWrapped
  | canInline
  | containsGenericVariables
  | classConstructorTriggered
  | checkRunClassInit
  | callCompCompile
  | nativeCode
  deriving DecidableEq, Repr

namespace Site

/-- The name under which a site is missed. -/
def key : Site → String
  | reset => "METHODDESC_RESET_RVA"
  | doPrestub => "METHODDESC_DOPRESTUB_RVA"
  | getWrapped => "METHODDESC_GETWRAPPEDMETHODDESC_RVA"
  | canInline => "CEEINFO_CANINLINE_RVA"
  | containsGenericVariables => "METHODDESC_DOPRESTUB_CALL_CONTAINSGENERICVARIABLES_RVA"
  | classConstructorTriggered =>
    "METHODDESC_DOPRESTUB_CALL_ISCLASSCONSTRUCTORTRIGGEREDVIAPRESTUB_RVA"
  | checkRunClassInit => "METHODDESC_DOPRESTUB_CALL_CHECKRUNCLASSINITTHROWING_RVA"
  | callCompCompile => "CALL_COMPCOMPILE_RVA"
  | nativeCode => "JITNATIVECODE_RVA"

/-- The site whose offset is assigned under a name. -/
def ofKey? : String → Option Site
  | "METHODDESC_RESET_RVA" => some reset
  | "METHODDESC_DOPRESTUB_RVA" => some doPrestub
  | "METHODDESC_GETWRAPPEDMETHODDESC_RVA" => some getWrapped
  | "CEEINFO_CANINLINE_RVA" => some canInline
  | "METHODDESC_DOPRESTUB_CALL_CONTAINSGENERICVARIABLES_RVA" => some containsGenericVariables
  | "METHODDESC_DOPRESTUB_CALL_ISCLASSCONSTRUCTORTRIGGEREDVIAPRESTUB_RVA" =>
    some classConstructorTriggered
  | "METHODDESC_DOPRESTUB_CALL_CHECKRUNCLASSINITTHROWING_RVA" => some checkRunClassInit
  | "CALL_COMPCOMPILE_RVA" => some callCompCompile
  | "JITNATIVECODE_RVA" => some nativeCode
  | _ => none

end Site

/-- The names of the offsets, in the order of a written table. -/
def offsetKeys : List String :=
  ["METHODDESC_RESET_RVA",
    "METHODDESC_DOPRESTUB_RVA",
    "METHODDESC_GETWRAPPEDMETHODDESC_RVA",
    "CEEINFO_CANINLINE_RVA",
    "METHODDESC_DOPRESTUB_CALL_CONTAINSGENERICVARIABLES_RVA",
    "METHODDESC_DOPRESTUB_CALL_ISCLASSCONSTRUCTORTRIGGEREDVIAPRESTUB_RVA",
    "METHODDESC_DOPRESTUB_CALL_CHECKRUNCLASSINITTHROWING_RVA",
    "CALL_COMPCOMPILE_RVA",
    "JITNATIVECODE_RVA"]

/-- The name of the engine's version in a table. -/
def engineVersionKey : String := "CLR_VERSION"

/-- The name of the compiler's version in a table. -/
def compilerVersionKey : String := "JIT_VERSION"

/-- The offsets of one build; zero where the build has no such site. -/
structure OffsetTable where
  engineVersion : Version
  compilerVersion : Version
  offset : Site → UInt32

namespace OffsetTable

/-- The offsets, in the order of a written table. -/
def values (table : OffsetTable) : List UInt32 :=
  [table.offset .reset, table.offset .doPrestub, table.offset .getWrapped, table.offset .canInline,
    table.offset .containsGenericVariables, table.offset .classConstructorTriggered,
    table.offset .checkRunClassInit, table.offset .callCompCompile, table.offset .nativeCode]

/-- The table with another offset at a site. -/
def setOffset (table : OffsetTable) (site : Site) (value : UInt32) : OffsetTable :=
  { table with offset := fun other => if other = site then value else table.offset other }

end OffsetTable

/-- An offset that must not be zero. -/
def requireOffset (offset : UInt32) (key : String) : Except Fault UInt32 :=
  if offset = 0 then .error (.missingOffset key) else .ok offset

/-- What a line of a table says. -/
inductive TableLine where
  | blank
  | engineVersion (version : Version)
  | compilerVersion (version : Version)
  /-- The name at a position of `offsetKeys` is given a value. -/
  | offset (position : Nat) (key : String) (value : UInt32)
  | unknown (key : String)
  deriving DecidableEq, Repr

/-- The digits of a hexadecimal value, without the sign that marks it as one. -/
def withoutHexMark (text : List Char) : List Char :=
  match Text.strip? ['0', 'x'] text with
  | some digits => digits
  | none => (Text.strip? ['0', 'X'] text).getD text

/-- What the line of the given number says. -/
def TableLine.parse (number : Nat) (line : List Char) : Except Fault TableLine := do
  let line := Text.trim line
  if line.isEmpty then return .blank
  match Text.cut? '=' line with
  | none => throw (.malformed (.notAssignment number (String.ofList line)))
  | some (key, value) =>
    let key := String.ofList (Text.trim key)
    let value := Text.trim value
    if key = engineVersionKey then return .engineVersion (← Version.parse (String.ofList value))
    else if key = compilerVersionKey then
      return .compilerVersion (← Version.parse (String.ofList value))
    else
      match offsetKeys.idxOf? key with
      | none => return .unknown key
      | some position =>
        match Numeral.readWord? 16 32 (withoutHexMark value) with
        | some word => return .offset position key (UInt32.ofNat word)
        | none => throw (.malformed (.offsetValue key (String.ofList value)))

/-- All names that must occur, the versions' behind those of the offsets. -/
def requiredKeys : List String := offsetKeys ++ [engineVersionKey, compilerVersionKey]

/-- What has been read of a table. -/
structure TableDraft where
  table : OffsetTable
  /-- The positions in `requiredKeys` of the names that occurred. -/
  seen : List Nat

namespace TableDraft

def empty : TableDraft := ⟨⟨default, default, fun _ => 0⟩, []⟩

def add (draft : TableDraft) : TableLine → TableDraft
  | .blank | .unknown _ => draft
  | .engineVersion version =>
    ⟨{ draft.table with engineVersion := version }, offsetKeys.length :: draft.seen⟩
  | .compilerVersion version =>
    ⟨{ draft.table with compilerVersion := version }, (offsetKeys.length + 1) :: draft.seen⟩
  | .offset position key value =>
    match Site.ofKey? key with
    | some site => ⟨draft.table.setOffset site value, position :: draft.seen⟩
    | none => { draft with seen := position :: draft.seen }

def finish (draft : TableDraft) : Except Fault OffsetTable :=
  match requiredKeys.zipIdx.find? fun required => required.2 ∉ draft.seen with
  | some (key, _) => .error (.missingOffset key)
  | none => .ok draft.table

end TableDraft

/-- The draft after the lines from `number` on, with a notice for each unknown name on the way. -/
def readTableLines :
    (number : Nat) → List (List Char) → TableDraft → Except Fault TableDraft × List Notice
  | _, [], draft => (.ok draft, [])
  | number, line :: lines, draft =>
    match TableLine.parse number line with
    | .error fault => (.error fault, [])
    | .ok entry =>
      let (result, notices) := readTableLines (number + 1) lines (draft.add entry)
      match entry with
      | .unknown key => (result, .unknownOffsetKey key :: notices)
      | _ => (result, notices)

namespace OffsetTable

/-- The table that a text holds, with the notices of reading it. -/
def parse (text : String) : Except Fault OffsetTable × List Notice :=
  match readTableLines 1 (Text.splitAt '\n' text.toList) .empty with
  | (.ok draft, notices) => (draft.finish, notices)
  | (.error fault, notices) => (.error fault, notices)

def text (table : OffsetTable) : String :=
  String.join ([
      engineVersionKey ++ "=" ++ table.engineVersion.text ++ "\n",
      compilerVersionKey ++ "=" ++ table.compilerVersion.text ++ "\n"] ++
    (offsetKeys.zip table.values).map fun (key, value) =>
      key ++ "=" ++ hex 0 value.toNat ++ "\n")

/-- The name of the file that holds the table of an architecture and a generation. -/
def fileName (architecture : Architecture) (flavor : Flavor) : String :=
  "JitUnpacker.RuntimeFunctions." ++ flavor.tag ++ "." ++ architecture.name ++ ".config"

/-- Checks that the table was made for the loaded modules. -/
def verify (table : OffsetTable) (modules : Modules) : Except Fault Unit :=
  if table.engineVersion ≠ modules.engineVersion then
    .error (.versionMismatch .engine table.engineVersion modules.engineVersion)
  else if table.compilerVersion ≠ modules.compilerVersion then
    .error (.versionMismatch .compiler table.compilerVersion modules.compilerVersion)
  else .ok ()

/-- The verified table of an environment, from a directory of files. -/
def load (directory : String → Option Bytes) (environment : Environment) :
    Except Fault OffsetTable × List Notice :=
  match directory (fileName environment.architecture environment.flavor) with
  | none => (.error .file, [])
  | some bytes =>
    match String.fromUTF8? ⟨bytes.toArray⟩ with
    | none => (.error .file, [])
    | some text =>
      match parse text with
      | (.error fault, notices) => (.error fault, notices)
      | (.ok table, notices) => (table.verify environment.modules *> .ok table, notices)

end OffsetTable

end CilCapture.Engine
