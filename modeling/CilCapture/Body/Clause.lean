import CilCapture.Bytes

/-!
# Raw exception clauses

A clause as the compiler and the body format know it: six words, bounds in bytes. A clause is of
one kind, which its lowest flags decide with the filter first.
-/

namespace CilCapture.Body

structure Clause where
  flags : UInt32
  tryOffset : UInt32
  tryLength : UInt32
  handlerOffset : UInt32
  handlerLength : UInt32
  /-- The class of a typed clause, the filter's offset of a filter clause. -/
  classOrFilter : UInt32
  deriving DecidableEq, Repr, Inhabited

inductive ClauseKind where
  | filter
  | finallyHandler
  | faultHandler
  | typed
  deriving DecidableEq, Repr

def ClauseKind.flags : ClauseKind → UInt32
  | filter => 1
  | finallyHandler => 2
  | faultHandler => 4
  | typed => 0

namespace Clause

/-- The flags that have a meaning: three kinds, duplicates and shared try ranges. -/
def knownFlags (clause : Clause) : UInt32 := clause.flags &&& 0x1F

def kind (clause : Clause) : ClauseKind :=
  if clause.flags &&& 1 ≠ 0 then .filter
  else if clause.flags &&& 2 ≠ 0 then .finallyHandler
  else if clause.flags &&& 4 ≠ 0 then .faultHandler
  else .typed

def words (clause : Clause) : List UInt32 :=
  [clause.flags, clause.tryOffset, clause.tryLength, clause.handlerOffset, clause.handlerLength,
    clause.classOrFilter]

/-- The clause as 24 bytes. -/
def encode (clause : Clause) : Bytes :=
  (clause.words.map fun word => Bytes.ofNat 4 word.toNat).flatten

end Clause

end CilCapture.Body
