import CilCapture.Address
import CilCapture.Body.Clause

/-!
# Interfaces of the compiler to the engine

An interface that works for every generation of the engine: its first word points to a table of
routines, its second to a table of distances whose second entry is the distance to an embedded
object, and that object points to a table of routines of its own. Every routine tells a clause. At
a distance of zero words the embedded object is the second word, so one table serves as both.

The interfaces stand at addresses of their own, far apart from each other, and the words around
them are computed from the address.
-/

namespace CilCapture.Rehearsal

structure Interface where
  /-- Words from the second word to the embedded object. -/
  displacement : Int
  /-- What its routines tell. -/
  clauses : List Body.Clause
  deriving DecidableEq, Repr

/-- The table that a routine was found in. -/
inductive RoutineTable where
  /-- The table of the interface. -/
  | outer
  /-- The table of the embedded object. -/
  | inner
  deriving DecidableEq, Repr

def RoutineTable.name : RoutineTable → String
  | outer => "outer"
  | inner => "inner"

namespace Interface

def entryCount : Nat := 12

def spacing : Nat := 0x100000000

def firstAddress : Address := 0x20000000000

/-- The address of the interface with a number. -/
def address (number : Nat) : Address := firstAddress + number * spacing

/-- The number of the interface nearest to an address. -/
def numberAt (address : Address) : Nat := (address - firstAddress + spacing / 2) / spacing

/-- Where the table of an interface stands. -/
def tableAddress (number : Nat) : RoutineTable → Address
  | .outer => address number + 0x10000000
  | .inner => address number + 0x20000000

/-- Where the distances of an interface stand. -/
def distancesAddress (number : Nat) : Address := address number + 0x40000000

/-- The address of the first routine of a table. -/
def firstRoutine : RoutineTable → Address
  | .outer => 0x4000000000000
  | .inner => 0x4000000000100

/-- The address of the routine in an entry of a table. -/
def routineAddress (table : RoutineTable) (slot : Nat) : Address := firstRoutine table + slot

/-- The table and the entry of a routine. -/
def ofRoutine (routine : Address) : RoutineTable × Nat :=
  if routine < firstRoutine .inner then (.outer, routine - firstRoutine .outer)
  else (.inner, routine - firstRoutine .inner)

def wordsFrom (start : Address) (words : List Address) : List (Address × Address) :=
  words.mapIdx fun index word => (start + index * Address.width, word)

/-- The words of the interface with a number. -/
def words (number : Nat) (interface : Interface) : List (Address × Address) :=
  let outer := tableAddress number .outer
  let inner := tableAddress number .inner
  let distances := distancesAddress number
  let routines (table : RoutineTable) := (List.range entryCount).map (routineAddress table)
  if interface.displacement = 0 then
    wordsFrom (address number) [outer, distances] ++
      wordsFrom distances ((routines .outer).set 1 0) ++ wordsFrom outer (routines .outer)
  else
    let embedded := Address.wrap (address number + (1 + interface.displacement) * Address.width)
    let distance := Address.wrap (interface.displacement * Address.width)
    wordsFrom (address number) [outer, distances] ++
      (if interface.displacement = -1 then [] else wordsFrom embedded [inner]) ++
      wordsFrom outer (routines .outer) ++ wordsFrom inner (routines .inner) ++
      wordsFrom distances [0, distance]

end Interface

end CilCapture.Rehearsal
