import CilCapture.Fault
import CilCapture.Text.Blank

/-!
# The hosting engine

Everything that differs between builds of the execution engine is decided here: its flavor, the
conventions of the compiler's routines and the layout of the method-info block. The file versions
that decide it are written as four decimal parts joined by dots, with blanks around the whole.
-/

namespace CilCapture.Engine

/-! ## Reading file versions -/

namespace Version

/-- The parts of `text`, of which at most `room` are allowed. -/
def readParts (text : String) : (room : Nat) → List (List Char) → Except Fault (List UInt16)
  | _, [] => .ok []
  | 0, _ :: _ => .error (.malformed (.versionTooLong text))
  | room + 1, part :: parts =>
    match Numeral.readWord? 10 16 part with
    | none => .error (.malformed (.versionPart (String.ofList part) text))
    | some value => (UInt16.ofNat value :: ·) <$> readParts text room parts

def parse (text : String) : Except Fault Version := do
  match ← readParts text 4 (Text.splitAt '.' (Text.trim text.toList)) with
  | [major, minor, build, revision] => return { major, minor, build, revision }
  | _ => throw (.malformed (.versionTooShort text))

end Version

/-! ## Flavors -/

inductive Flavor where
  /-- 2.0 to 3.5 -/
  | v2
  /-- 4.0 before the in-place update to 4.5 -/
  | v40
  /-- 4.5 and later -/
  | v45
  deriving DecidableEq, Repr, Inhabited

inductive InfoLayout where
  /-- The block of the 2.0 engine, whose stack depth and clause count take two bytes. -/
  | v20
  /-- The block of the 4.x engines. -/
  | v40
  deriving DecidableEq, Repr, Inhabited

def firstV45 : Version := ⟨4, 0, 30319, 17020⟩

/-- First 4.5 build whose compiler takes `this` on the stack again. -/
def firstV45StdCall : Version := ⟨4, 0, 30319, 17929⟩

namespace Flavor

def name : Flavor → String
  | v2 => "CLR 2.x"
  | v40 => "CLR 4.0"
  | v45 => "CLR 4.5+"

def ofVersion (version : Version) : Except Fault Flavor :=
  if version.major = 2 then .ok v2
  else if version.major = 4 then .ok (if version.before firstV45 then v40 else v45)
  else .error (.unsupportedRuntime version)

/-- Whether it is one of the 4.x generations. -/
def isV4 : Flavor → Bool
  | v2 => false
  | v40 | v45 => true

/-- The tag of the generation in names of offset files. -/
def tag : Flavor → String
  | v2 => "CLR20"
  | v40 | v45 => "CLR40"

def layout : Flavor → InfoLayout
  | v2 => .v20
  | v40 | v45 => .v40

end Flavor

structure Modules where
  engineBase : Address
  engineVersion : Version
  compilerBase : Address
  compilerVersion : Version
  /-- The compiler object, null when it is not known. -/
  compilerInstance : Address
  deriving DecidableEq, Repr, Inhabited

/-- The classified engine that a session works on. -/
structure Environment where
  architecture : Architecture
  flavor : Flavor
  modules : Modules
  deriving DecidableEq, Repr, Inhabited

namespace Environment

def classify (architecture : Architecture) (modules : Modules) : Except Fault Environment := do
  let flavor ← Flavor.ofVersion modules.engineVersion
  return { architecture, flavor, modules }

def pointerSize (environment : Environment) : Nat := environment.architecture.pointerSize

/-- Convention of the compiler's interface; only preview builds of 4.5 differ. -/
def compileMethodConvention (environment : Environment) : Convention :=
  let version := environment.modules.engineVersion
  if !version.before firstV45 && version.before firstV45StdCall then .thisCall else .stdCall

/-- Convention of the compiler's internal compile routine. -/
def compCompileConvention (_environment : Environment) : Convention := .fastCall

def layout (environment : Environment) : InfoLayout := environment.flavor.layout

end Environment

end CilCapture.Engine
