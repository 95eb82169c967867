import CilCapture.Address
import CilCapture.Engine.Basic
import CilCapture.Il.Instruction

/-!
# Causes of failure

`Fault` says why an operation failed, `Malformation` what is wrong with data that does not parse,
`AccessFault` why an access to memory was refused. Each has one function that words it.
-/

namespace CilCapture

/-- What is wrong with data that does not parse or cannot be written. -/
inductive Malformation where
  /-- A compressed integer starts with a byte that no length class allows. -/
  | compressedLead (lead : UInt8)
  | unknownOpcode (value : UInt16) (offset : Nat)
  | branchLeaves (offset : Nat) (target : Int)
  | branchMisses (offset target : Nat)
  | switchTooLong (offset count : Nat)
  | targetOutside (index count : Nat)
  | shortBranchTooFar (opcode : Il.Opcode) (offset : Nat) (displacement : Int)
  | operandMismatch (operand : Il.Operand) (opcode : Il.Opcode) (offset : Nat)
  | regionOutside (index count : Nat)
  | clauseStart (offset : Nat)
  | clauseEnd (end_ size : Nat)
  | tooManyClauses (count : Nat)
  | emptyBody
  | headerFormat (first : UInt8)
  | maxStack (depth : UInt32)
  | typeTooDeep (limit : Nat)
  | unknownElement (tag : UInt8)
  | integerTooLarge (value : Nat)
  | notLocals (lead : UInt8)
  | trailingBytes (bytes count : Nat)
  /-- A fault in one variable of a local signature. -/
  | inLocal (index : Nat) (cause : Malformation)
  | versionTooLong (text : String)
  | versionPart (part text : String)
  | versionTooShort (text : String)
  | notAssignment (line : Nat) (text : String)
  | offsetValue (key text : String)
  | patchLengths (intent : Engine.PatchIntent) (address saved replacement : Nat)
  | headerOutside (pointer : Nat)
  | tooManySections (count : Nat)
  | noOptionalHeader (base : Address)
  deriving DecidableEq, Repr

def Malformation.message : Malformation → String
  | compressedLead lead => "Invalid compressed uint - " ++ decimal lead.toNat
  | unknownOpcode value offset =>
    "Invalid opcode 0x" ++ hex 0 value.toNat ++ " at IL_" ++ hex 4 offset
  | branchLeaves offset target =>
    "Branch at IL_" ++ hex 4 offset ++ " leaves the method (target " ++ signedDecimal target ++ ")"
  | branchMisses offset target =>
    "Branch at IL_" ++ hex 4 offset ++ " targets 0x" ++ hex 0 target ++
      ", which is not an instruction boundary"
  | switchTooLong offset count =>
    "Switch at IL_" ++ hex 4 offset ++ " declares " ++ decimal count ++
      " targets past the end of the stream"
  | targetOutside index count =>
    "Branch target " ++ decimal index ++ " is outside of " ++ decimal count ++ " instructions"
  | shortBranchTooFar opcode offset displacement =>
    opcode.name ++ " at IL_" ++ hex 4 offset ++ " cannot reach its target (" ++
      signedDecimal displacement ++ " bytes)"
  | operandMismatch operand opcode offset =>
    "Operand " ++ operand.text ++ " does not fit " ++ opcode.name ++ " at IL_" ++ hex 4 offset
  | regionOutside index count =>
    "Exception region references instruction " ++ decimal index ++ " of " ++ decimal count
  | clauseStart offset =>
    "Exception clause offset 0x" ++ hex 0 offset ++ " is not an instruction boundary"
  | clauseEnd end_ size =>
    "Exception clause ends at 0x" ++ hex 0 end_ ++ ", past the code size 0x" ++ hex 0 size
  | tooManyClauses count => decimal count ++ " exception clauses do not fit a fat section"
  | emptyBody => "Provided data for body parsing is empty"
  | headerFormat first => "MethodHeader is neither FAT nor TINY - " ++ decimal first.toNat
  | maxStack depth => "Max stack " ++ decimal depth.toNat ++ " exceeds the header range"
  | typeTooDeep limit => "Type encoding nested deeper than " ++ decimal limit
  | unknownElement tag => "Unknown element type 0x" ++ hex 2 tag.toNat
  | integerTooLarge value =>
    "Value 0x" ++ hex 0 value ++ " does not fit a compressed integer"
  | notLocals lead => "Local signature starts with 0x" ++ hex 2 lead.toNat ++ " instead of 0x07"
  | trailingBytes bytes count =>
    decimal bytes ++ " trailing bytes after " ++ decimal count ++ " locals"
  | inLocal index cause => "Local " ++ decimal index ++ " - " ++ cause.message
  | versionTooLong text => "Version has more than four parts - " ++ text
  | versionPart part text => "Invalid version component '" ++ part ++ "' in " ++ text
  | versionTooShort text => "Version must have four parts - " ++ text
  | notAssignment line text => "Line " ++ decimal line ++ " is not KEY=VALUE - " ++ text
  | offsetValue key text => "Invalid hex value for " ++ key ++ " - " ++ text
  | patchLengths intent address saved replacement =>
    "Patch " ++ intent.name ++ " at 0x" ++ hex 0 address ++ " has " ++ decimal saved ++
      " original and " ++ decimal replacement ++ " replacement bytes"
  | headerOutside pointer =>
    "PE header at 0x" ++ hex 0 pointer ++ " lies outside of the header span"
  | tooManySections count => decimal count ++ " sections do not fit the header span"
  | noOptionalHeader base => "Image at 0x" ++ hex 0 base ++ " has no optional header"

/-- Why an access to memory was refused. -/
inductive AccessFault where
  | unmapped (length : Nat)
  | overlapping
  | nullAddress
  | readOnly
  | noRoomNear (size : Nat)
  deriving DecidableEq, Repr

def AccessFault.message : AccessFault → String
  | unmapped length => decimal length ++ " bytes are not mapped"
  | overlapping => "region overlaps an existing mapping"
  | nullAddress => "null address"
  | readOnly => "read-only"
  | noRoomNear size => "no free " ++ decimal size ++ " bytes within rel32 range"

/-- How the state of a redirect forbids an operation. -/
inductive HookStateFault where
  | callAlreadyRedirected
  | callNotRedirected
  | tableAlreadyRedirected
  | tableNotRedirected
  | noInstance
  | noMethodInfo
  deriving DecidableEq, Repr

def HookStateFault.message : HookStateFault → String
  | callAlreadyRedirected => "inline hook is already installed"
  | callNotRedirected => "inline hook is not installed"
  | tableAlreadyRedirected => "interface table hook is already installed"
  | tableNotRedirected => "interface table hook is not installed"
  | noInstance => "compiler instance is not available"
  | noMethodInfo => "compile event without method info"

/-- The module of the engine whose version did not match. -/
inductive EngineModule where
  | engine
  | compiler
  deriving DecidableEq, Repr

def EngineModule.name : EngineModule → String
  | engine => "CLR"
  | compiler => "JIT"

inductive Fault where
  | malformed (cause : Malformation)
  /-- The data ended too early, or an index lies outside of it. -/
  | outOfBounds
  | unsupportedArchitecture (architecture : Engine.Architecture)
  | unsupportedRuntime (version : Engine.Version)
  | unsupportedConvention (source target : Engine.Convention)
  | versionMismatch (component : EngineModule) (expected actual : Engine.Version)
  | missingOffset (key : String)
  | patchMismatch (address : Address) (expected found : Bytes)
  | hookState (cause : HookStateFault)
  /-- Another session already owns the redirect. -/
  | hookActive
  | displacementOutOfRange (site target : Address)
  | memory (address : Address) (cause : AccessFault)
  /-- The capture of one method failed. -/
  | capture (token : Token) (source : Fault)
  | captureCountMismatch (expected actual : Nat)
  | noOutputModule
  /-- A fault caught at the boundary to native code. -/
  | nativeFault (message : String)
  /-- A file could not be read. -/
  | file
  /-- The headers of an image do not parse. -/
  | imageHeader
  /-- A native routine was asked for as something that is no function pointer. -/
  | notAFunctionPointer
  | unknownHookKind (name : String)
  /-- A range, an index or a distance that leaves the machine word it is computed in. No operation
  survives it. -/
  | overrun
  /-- A failure reported by a collaborator. -/
  | other (message : String)
  deriving DecidableEq, Repr

def Bytes.text (bytes : Bytes) : String :=
  "[" ++ ", ".intercalate (bytes.map fun byte => hex 2 byte.toNat) ++ "]"

def Fault.message : Fault → String
  | malformed cause => "Malformed - " ++ cause.message
  | outOfBounds => "Out of Bound read would have occurred"
  | unsupportedArchitecture architecture => "Operation is not supported on " ++ architecture.name
  | unsupportedRuntime version => "Unsupported runtime version - " ++ version.text
  | unsupportedConvention source target =>
    "Cannot convert calling convention " ++ source.name ++ " to " ++ target.name
  | versionMismatch component expected actual =>
    component.name ++ " version mismatch - expected " ++ expected.text ++ ", found " ++
      actual.text ++ "; regenerate the offset table"
  | missingOffset key => "Offset table has no entry for " ++ key
  | patchMismatch address expected found =>
    "Unexpected bytes at 0x" ++ hex 0 address ++ " - expected " ++ expected.text ++ ", found " ++
      found.text
  | hookState cause => "Invalid hook state - " ++ cause.message
  | hookActive => "Another compiler hook is already active"
  | displacementOutOfRange site target =>
    "Target 0x" ++ hex 0 target ++ " is out of rel32 range from 0x" ++ hex 0 site
  | memory address cause =>
    "Memory access failed at 0x" ++ hex 0 address ++ " - " ++ cause.message
  | capture token _ => "Failed to capture method " ++ token.text
  | captureCountMismatch expected actual =>
    "Failed to dump current method - expected " ++ decimal expected ++ " captures, found " ++
      decimal actual
  | noOutputModule => "No output module is loaded"
  | nativeFault message => "Native fault - " ++ message
  | file => "File access failed"
  | imageHeader => "Image headers do not parse"
  | notAFunctionPointer => "callable type must be a function pointer"
  | unknownHookKind name => "Unknown hook type '" ++ name ++ "'"
  | overrun => "Number exceeds a machine word"
  | other message => message

/-- The fault's wording followed by those of its sources. -/
def Fault.chain : Fault → String
  | fault@(.capture _ source) => fault.message ++ " <- " ++ source.chain
  | fault => fault.message

/-- The address at a distance behind another. -/
def Address.advance (base : Address) (distance : Nat) : Except Fault Address :=
  if base + distance < Address.limit then .ok (base + distance) else .error .overrun

/-- Inside the address space a distance is just added. -/
theorem Address.advance_of_lt {base : Address} {distance : Nat}
    (inside : base + distance < Address.limit) : base.advance distance = .ok (base + distance) :=
  if_pos inside

/-- A step that comes to a result and changes nothing. -/
def settle {σ α : Type} : Except Fault α → EStateM Fault σ α
  | .ok value => pure value
  | .error fault => throw fault

/-- A step whose fault is a result. -/
def attempt {σ α : Type} (step : EStateM Fault σ α) : EStateM Fault σ (Except Fault α) :=
  fun state =>
    match step state with
    | .ok value state => .ok (.ok value) state
    | .error fault state => .ok (.error fault) state

/-- A fault, or a breakdown of the code that was asked: it did not return at all. -/
inductive Abort where
  | fault (cause : Fault)
  | breakdown
  deriving DecidableEq, Repr

end CilCapture
