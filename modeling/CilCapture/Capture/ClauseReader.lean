import CilCapture.Compile.Routine
import CilCapture.Engine.Adapter

/-!
# Reading exception clauses from the engine

The compiler's interface to the engine tells the clauses of a method one by one. The generations
differ in where the routine stands in an interface table and on which object it is called: since
4.5 on the interface itself, before that on an object embedded in it, whose place the interface
records in its second word.
-/

namespace CilCapture.Capture

open Engine Compile

structure ClauseReader where
  /-- The routine. -/
  function : Address
  /-- Whether it is called on the embedded object. -/
  embedded : Bool
  deriving DecidableEq, Repr

/-- Whether a generation's routine is called on the embedded object. -/
def usesEmbedded : Flavor → Bool
  | .v45 => false
  | .v40 | .v2 => true

def tableEntry : Flavor → Nat
  | .v45 | .v2 => 8
  | .v40 => 10

def clauseConvention : Flavor → Convention
  | .v45 => .thisCall
  | .v40 | .v2 => .stdCall

section

variable {W : Type} [NativeCode W]

/-- The object embedded in an interface: its distance from the interface's second word is the second
word of the table that this word points to. -/
def embeddedObject (jitInfo : Address) (world : W) : Address :=
  let distances : Address := NativeCode.word (jitInfo + Address.width) world
  let distance : Address := NativeCode.word (distances + Address.width) world
  Address.wrap (jitInfo + distance + Address.width)

/-- The object on which the routine is called. -/
def clauseObject (embedded : Bool) (jitInfo : Address) (world : W) : Address :=
  if embedded then embeddedObject jitInfo world else jitInfo

namespace ClauseReader

def locate [CodeSpace W] (flavor : Flavor) (architecture : Architecture) (jitInfo : Address) :
    EStateM Fault W ClauseReader := do
  let world ← get
  let object := clauseObject (usesEmbedded flavor) jitInfo world
  let table : Address := NativeCode.word object world
  let function : Address := NativeCode.word (table + tableEntry flavor * Address.width) world
  let function ← callable architecture Address.width function (clauseConvention flavor)
  return { function, embedded := usesEmbedded flavor }

/-- The clauses of a method from the one at `index` on. -/
def readFrom (reader : ClauseReader) (object method : Address) :
    (count index : Nat) → W → List Body.Clause × W
  | 0, _, world => ([], world)
  | count + 1, index, world =>
    let (clause, world) := NativeCode.clauseInfo reader.function object method index world
    let (clauses, world) := reader.readFrom object method count (index + 1) world
    (clause :: clauses, world)

/-- The first `count` clauses of a method. -/
def read (reader : ClauseReader) (jitInfo method : Address) (count : Nat) (world : W) :
    List Body.Clause × W :=
  reader.readFrom (clauseObject reader.embedded jitInfo world) method count 0 world

end ClauseReader

end

end CilCapture.Capture
