import CilCapture.Engine.Adapter
import CilCapture.Engine.Identity
import CilCapture.Engine.Offsets

/-!
# Sites of redirects

The compiler can be redirected at the relative call to its internal compile routine or at the first
entry of its interface table (`HookKind`). Finding the site of either kind finds the bytes of the
compiler that a redirect overwrites, the routine they lead to and the bytes that lead to the
library's entry point instead. Nothing that was mapped before is changed; a jump may be placed near
a call that does not reach the entry point.
-/

namespace CilCapture.Hook

open Engine Memory

/-! ## Kinds of redirects -/

/-- Where the compiler is redirected. -/
inductive HookKind where
  /-- At the relative call to the internal compile routine. -/
  | call
  /-- At the first entry of the interface table. -/
  | table
  deriving DecidableEq, Repr, Inhabited

namespace HookKind

def name : HookKind → String
  | call => "Inline"
  | table => "VTable"

/-- The kind of this name, in any case. -/
def parse (text : String) : Except Fault HookKind :=
  match [call, table].find? fun kind => Text.sameLetters kind.name.toList text.toList with
  | some kind => .ok kind
  | none => .error (.unknownHookKind text)

end HookKind

/-! ## Sites -/

/-- The addresses of the library's entry points. -/
structure EntryPoints where
  compileMethod : Address
  compCompile : Address
  deriving DecidableEq, Repr

/-- Whether an address is one of the two. -/
def EntryPoints.has (entries : EntryPoints) (address : Address) : Bool :=
  address == entries.compileMethod || address == entries.compCompile

/-- What is needed to find a site. -/
structure HookContext where
  environment : Environment
  table : OffsetTable
  entries : EntryPoints
  resolver : Resolver

structure HookSite where
  /-- Where bytes are overwritten. -/
  address : Address
  /-- The bytes found there. -/
  found : Bytes
  /-- The bytes that lead to the entry point. -/
  redirected : Bytes
  /-- Where the replaced routine can be called. -/
  routine : Address
  deriving DecidableEq, Repr

def callOpcode : UInt8 := 0xE8

/-- Where a relative call goes whose displacement stands at `operand`. -/
def callTarget (operand : Address) (displacement : Int) : Address :=
  Address.wrap ((operand : Int) + 4 + displacement)

/-- The displacement at `operand` that reaches `target`, if four bytes can hold it. Both are signed
words, and so are the place behind the operand and the distance from there. -/
def displacementTo (operand target : Address) : Except Fault Int :=
  let behind := operand.signed + 4
  let displacement := target.signed - behind
  if !Address.holdsSigned behind || !Address.holdsSigned displacement then .error .overrun
  else if -0x80000000 ≤ displacement ∧ displacement < 0x80000000 then .ok displacement
  else .error (.displacementOutOfRange operand target)

variable {W : Type} [AddressSpace W] [CodeSpace W]

/-- The call to the internal compile routine. Adapters are made for the architecture of the
environment: a context names no other one for them. -/
def findCall (context : HookContext) : EStateM Fault W HookSite := do
  let environment := context.environment
  let offset ← settle
    (requireOffset (context.table.offset .callCompCompile) Engine.Site.callCompCompile.key)
  let site := environment.modules.compilerBase + offset.toNat
  let opcode ← loadByte site
  if opcode ≠ callOpcode then throw (.patchMismatch site [callOpcode] [opcode])
  let operand := site + 1
  let found ← load operand 4
  let displacement := (UInt32.ofNat found.toNat).toInt32.toInt
  let convention := environment.compCompileConvention
  let routine ← callable environment.architecture Address.width
    (callTarget operand displacement) convention
  let entry ← nativeAddress environment.architecture context.entries.compCompile convention
  let stub ← nearTarget environment.architecture operand entry
  let redirected ← settle (displacementTo operand stub)
  return { address := operand, found, redirected := Bytes.ofInt 4 redirected, routine }

/-- The first entry of the compiler's interface table. As at the call, adapters are made for the
architecture of the environment. -/
def findTable (context : HookContext) : EStateM Fault W HookSite := do
  let environment := context.environment
  let size := environment.pointerSize
  if environment.modules.compilerInstance = 0 then throw (.hookState .noInstance)
  let slot ← loadPointer environment.modules.compilerInstance size
  let found ← load slot size
  let convention := environment.compileMethodConvention
  let routine ← callable environment.architecture Address.width found.toNat convention
  let redirected ←
    nativeAddress environment.architecture context.entries.compileMethod convention
  return { address := slot, found, redirected := Bytes.ofNat size redirected, routine }

/-- The site of a kind of redirect. -/
def findSite (kind : HookKind) (context : HookContext) : EStateM Fault W HookSite :=
  match kind with
  | .call => findCall context
  | .table => findTable context

end CilCapture.Hook
