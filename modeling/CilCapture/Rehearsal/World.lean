import CilCapture.Compile.Routine
import CilCapture.Compile.Filter
import CilCapture.Engine.Adapter
import CilCapture.Engine.Identity
import CilCapture.Memory.Guarded
import CilCapture.Rehearsal.Interface
import CilCapture.Rehearsal.TableModule

/-!
# Rehearsals

A rehearsal is a session in a world given by data: memory in buffers, an engine that answers from
lists, a compiler that compiles nothing. Whatever the world is asked is noted as an `Incident`, so
that what a session did can be read off afterwards.
-/

namespace CilCapture.Rehearsal

open Compile Engine Memory

inductive Incident where
  /-- The engine was asked about a method. -/
  | query (question : String) (method : Handle)
  /-- A collaborator was called, with an argument as text. -/
  | request (call argument : String)
  /-- A strategy took a step. -/
  | step (text : String)
  /-- A forced compilation returned. -/
  | compiled (result : Int32)
  /-- A module was written. -/
  | write (path : String) (options : WriteOptions) (module_ : TableModule)
  /-- A call reached the compiler. -/
  | compilerCall (call : CompileCall)
  /-- A clause was told; `this` counts in words from the interface. -/
  | clause (table : RoutineTable) (slot : Nat) (this : Int) (method : Address) (index : Nat)
  /-- A callback was entered. -/
  | callback (event : CompileEvent) (depth : Nat)
  /-- A call made by a callback returned. -/
  | nestedCall (result : Int32)
  /-- The filter, asked by a callback, decided. -/
  | nestedSift (outcome : FilterOutcome)
  deriving DecidableEq, Repr

structure Answers where
  valueTypes : List Handle
  /-- Methods about which it does not answer whether they belong to a value type. -/
  unknown : List Handle
  /-- Methods about whose stubs it does not answer. -/
  broken : List Handle
  instantiating : List (Handle × Handle)
  unboxing : List (Handle × Handle)
  deriving DecidableEq, Repr

/-- An engine that knows no value types. -/
def Answers.none : Answers := ⟨[], [], [], [], []⟩

structure World where
  memory : GuardedMemory
  answers : Answers
  /-- The interfaces made so far. -/
  interfaces : List Interface
  /-- The code placed so far. -/
  code : List Bytes
  /-- What the method descriptors of stubs wrap. -/
  wrapped : List (Handle × Handle)
  /-- What happened, in order. -/
  incidents : List Incident
  deriving Repr

namespace World

/-- A world in which nothing has happened. -/
def ofMemory (memory : GuardedMemory) : World where
  memory
  answers := .none
  interfaces := []
  code := []
  wrapped := []
  incidents := []

def note (incident : Incident) (world : World) : World :=
  { world with incidents := world.incidents ++ [incident] }

def onMemory {α : Type} (step : EStateM Fault GuardedMemory α) : EStateM Fault World α :=
  fun world =>
    match step world.memory with
    | .ok value memory => .ok value { world with memory }
    | .error fault memory => .error fault { world with memory }

instance : AddressSpace World where
  read address length world := AddressSpace.read address length world.memory
  write address data := onMemory (AddressSpace.write address data)
  allocateNear near size := onMemory (AddressSpace.allocateNear near size)

def firstCode : Address := 0x80000000000

/-- Room for one piece of placed code. -/
def codeSpacing : Nat := 0x100

instance : CodeSpace World where
  place code world :=
    .ok (firstCode + world.code.length * codeSpacing) { world with code := world.code ++ [code] }

def placedAt? (address : Address) (world : World) : Option Bytes :=
  if address < firstCode then none else world.code[(address - firstCode) / codeSpacing]?

/-- A noted question to the engine: it fails for some methods and gives the answer for others. -/
def ask {α : Type} (question : String) (method : Handle) (silent : Bool) (answer : α) :
    EStateM Fault World α := fun world =>
  let world := world.note (.query question method)
  if silent then .error (.other (question ++ " failed for 0x" ++ hex 0 method)) world
  else .ok answer world

instance : Introspection World where
  isValueTypeMember method world :=
    ask "is_value_type_member" method (method ∈ world.answers.unknown)
      (decide (method ∈ world.answers.valueTypes)) world
  instantiatingStub method world :=
    ask "instantiating_stub" method (method ∈ world.answers.broken)
      ((world.answers.instantiating.lookup method).getD method) world
  unboxingStub method world :=
    ask "unboxing_stub" method (method ∈ world.answers.broken)
      ((world.answers.unboxing.lookup method).getD method) world

/-- Makes an interface; the result is its address. -/
def makeInterface (interface : Interface) (world : World) : Address × World :=
  (Interface.address world.interfaces.length,
    { world with interfaces := world.interfaces ++ [interface] })

/-- The words at and around the interfaces. -/
def word (address : Address) (world : World) : Address :=
  let number := Interface.numberAt address
  match world.interfaces[number]? with
  | none => 0
  | some interface => ((interface.words number).lookup address).getD 0

/-- A routine of an interface tells a clause. -/
def tellClause (routine this method : Address) (index : Nat) (world : World) :
    Body.Clause × World :=
  let (table, slot) := Interface.ofRoutine routine
  let number := Interface.numberAt this
  let distance : Int := ((this : Int) - Interface.address number) / Address.width
  let clause := (world.interfaces[number]?.bind fun interface => interface.clauses[index]?).getD
    default
  (clause, world.note (.clause table slot distance method index))

/-- What the compiler returns for every call. -/
def compilerResult : Int32 := 18967

/-- Where the engine's routines stand; a routine's offset is its distance from here. -/
def engineBase : Address := 0x40000000000

/-- Offset of the routine that resets a method. -/
def resetOffset : Nat := 0x1000

def prestubOffset : Nat := 0x2000

/-- Offset of the routine that unwraps a stub. -/
def unwrapOffset : Nat := 0x3000

/-- A routine of the engine on a method. -/
def callEngine (routine method : Address) (world : World) : Address × World :=
  let noted (call : String) := world.note (.request call ("0x" ++ hex 0 method))
  if routine = engineBase + resetOffset then (0, noted "reset")
  else if routine = engineBase + prestubOffset then (Address.wrap (method + 1), noted "do_prestub")
  else ((world.wrapped.lookup method).getD method, noted "wrapped_method")

instance : NativeCode World where
  word := word
  clauseInfo := tellClause
  compile _ call world := (compilerResult, world.note (.compilerCall call))
  call routine arguments := .ofStep fun world =>
    let (result, world) := callEngine routine (arguments.headD 0) world
    .ok result world

/-- Writes a module: the write is noted first. -/
def writeModule (path : String) (options : WriteOptions) (module_ : TableModule) :
    EStateM Fault World Unit := fun world =>
  let world := world.note (.write path options module_)
  match module_.allow "write" with
  | .ok () => .ok () world
  | .error fault => .error fault world

instance : ModuleStore TableModule World where
  methodCount module_ := module_.bodies.length
  hasBody row module_ := do
    let body ← module_.lookUpBody "has_body" row
    return body.isSome
  methodBody := TableModule.methodBody
  replaceBody := TableModule.replaceBody
  globalConstructor := TableModule.globalConstructor
  typeConstructors := TableModule.typeConstructors
  signatureCount module_ := module_.signatures.length
  signature := TableModule.signature
  setSignature := TableModule.setSignature
  removeType := TableModule.removeType
  write := writeModule

end World

end CilCapture.Rehearsal
