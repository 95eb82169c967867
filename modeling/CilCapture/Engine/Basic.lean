import CilCapture.Text.Numeral

/-!
# What engines are told apart by

The architecture of the hosting process, the file versions of the engine's modules, and how native
routines of the engine receive their arguments; and what a patch of the engine is for. These are
plain data: what follows from them for one engine is decided in `Engine/Environment`, what code an
adapter between two conventions takes in `Engine/Adapter`, and which bytes a patch replaces in
`Engine/Patch`.
-/

namespace CilCapture.Engine

/-! ## Architectures -/

/-- The processor architecture of a hosting process. -/
inductive Architecture where
  | x86
  | x64
  deriving DecidableEq, Repr, Inhabited

/-- Bytes of a pointer. -/
def Architecture.pointerSize : Architecture → Nat
  | .x86 => 4
  | .x64 => 8

def Architecture.name : Architecture → String
  | .x86 => "x86"
  | .x64 => "x64"

/-! ## File versions -/

/-- A file version: four parts, compared from the left. -/
structure Version where
  major : UInt16
  minor : UInt16
  build : UInt16
  revision : UInt16
  deriving DecidableEq, Repr, Inhabited

namespace Version

def parts (version : Version) : List UInt16 :=
  [version.major, version.minor, version.build, version.revision]

/-- Whether a version comes before another: the first part in which they differ decides. -/
def before (a b : Version) : Bool :=
  if a.major ≠ b.major then a.major < b.major
  else if a.minor ≠ b.minor then a.minor < b.minor
  else if a.build ≠ b.build then a.build < b.build
  else a.revision < b.revision

/-- The version as text: its parts in decimal, joined by dots. -/
def text (version : Version) : String :=
  ".".intercalate (version.parts.map fun part => decimal part.toNat)

end Version

/-! ## Calling conventions -/

/-- A calling convention, as far as adapters tell them apart. -/
inductive Convention where
  /-- The platform's default, the same as `stdCall` here. -/
  | winapi
  /-- All arguments on the stack, removed by the caller. -/
  | cdecl
  /-- All arguments on the stack, removed by the callee. -/
  | stdCall
  /-- `stdCall` with the first argument in `ecx`. -/
  | thisCall
  /-- `stdCall` with the first two arguments in `ecx` and `edx`. -/
  | fastCall
  deriving DecidableEq, Repr, Inhabited

namespace Convention

def all : List Convention := [winapi, cdecl, stdCall, thisCall, fastCall]

def name : Convention → String
  | winapi => "Winapi"
  | cdecl => "Cdecl"
  | stdCall => "StdCall"
  | thisCall => "ThisCall"
  | fastCall => "FastCall"

def ofName? (text : String) : Option Convention := all.find? (·.name == text)

/-- The platform's default replaced by what it stands for. -/
def normalized : Convention → Convention
  | winapi => stdCall
  | other => other

end Convention

/-! ## Purposes of patches -/

/-- Purpose of a patch to the execution engine. -/
inductive PatchIntent where
  /-- Every inlining decision answers "never". -/
  | noInline
  /-- Compiling a method no longer triggers static initializers. -/
  | suppressStaticInit
  /-- Methods with unresolved generic parameters are no longer rejected. -/
  | allowGenericShells
  deriving DecidableEq, Repr, Inhabited

def PatchIntent.name : PatchIntent → String
  | noInline => "NoInline"
  | suppressStaticInit => "SuppressStaticInit"
  | allowGenericShells => "AllowGenericShells"

end CilCapture.Engine
