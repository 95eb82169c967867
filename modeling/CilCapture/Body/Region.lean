import CilCapture.Body.Clause
import CilCapture.Il.Boundary
import CilCapture.Il.Layout
import CilCapture.Fault

/-!
# Exception regions

A region is a clause bounded by instruction indices. `Region.ofClause` maps the byte bounds of a
clause through a layout, `Region.toClause` maps the indices back. An end bound is exclusive; the
end of the method is `none`.
-/

namespace CilCapture.Body

/-- What the handler of a region does. -/
inductive Handler where
  /-- Catches objects of a class. -/
  | typed (class_ : Token)
  /-- Asks a filter block that starts at an instruction. -/
  | filter (start : Nat)
  | finallyHandler
  | faultHandler
  deriving DecidableEq, Repr, Inhabited

structure Region where
  handler : Handler
  tryStart : Nat
  tryEnd : Option Nat
  handlerStart : Nat
  handlerEnd : Option Nat
  deriving DecidableEq, Repr, Inhabited

/-- The code size that a layout ends with. -/
def layoutSize (offsets : List Nat) : Nat := offsets.getLast?.getD 0

/-- The instruction that starts at a byte offset. -/
def startIndex (offsets : List Nat) (offset : Nat) : Except Fault Nat :=
  match Il.boundary? offsets.dropLast offset with
  | some index => .ok index
  | none => .error (.malformed (.clauseStart offset))

/-- The instruction at the end of a byte range, none at the end of the code. An end inside the code
is itself a word. -/
def endIndex (offsets : List Nat) (start length : UInt32) : Except Fault (Option Nat) :=
  let finish := start.toNat + length.toNat
  let size := layoutSize offsets
  if finish = size then .ok none
  else if size < finish then .error (.malformed (.clauseEnd finish size))
  else some <$> startIndex offsets (start + length).toNat

/-- The fault of an instruction that is not in a layout. No instruction can follow one whose index
is the greatest word. -/
def missingInstruction (offsets : List Nat) (index : Nat) : Fault :=
  if index + 1 = Address.limit then .overrun
  else .malformed (.regionOutside index offsets.dropLast.length)

def offsetOf (offsets : List Nat) (index : Nat) : Except Fault UInt32 :=
  match offsets.dropLast[index]? with
  | some offset => .ok (UInt32.ofNat offset)
  | none => .error (missingInstruction offsets index)

/-- The byte offset of an exclusive end. -/
def endOffset (offsets : List Nat) : Option Nat → Except Fault UInt32
  | some index => offsetOf offsets index
  | none => .ok (UInt32.ofNat (layoutSize offsets))

/-- The bytes from one offset to another, none when they are inverted. -/
def extent (start finish : UInt32) : UInt32 := if finish < start then 0 else finish - start

namespace Region

def handlerOfClause (clause : Clause) (offsets : List Nat) : Except Fault Handler :=
  match clause.kind with
  | .filter => .filter <$> startIndex offsets clause.classOrFilter.toNat
  | .finallyHandler => .ok .finallyHandler
  | .faultHandler => .ok .faultHandler
  | .typed => .ok (.typed ⟨clause.classOrFilter⟩)

/-- The region of a clause in a stream with the given layout. -/
def ofClause (clause : Clause) (offsets : List Nat) : Except Fault Region := do
  let handler ← handlerOfClause clause offsets
  let tryStart ← startIndex offsets clause.tryOffset.toNat
  let tryEnd ← endIndex offsets clause.tryOffset clause.tryLength
  let handlerStart ← startIndex offsets clause.handlerOffset.toNat
  let handlerEnd ← endIndex offsets clause.handlerOffset clause.handlerLength
  return { handler, tryStart, tryEnd, handlerStart, handlerEnd }

/-- The kind of a handler and the last word of its clause. -/
def clauseOfHandler (offsets : List Nat) : Handler → Except Fault (ClauseKind × UInt32)
  | .typed class_ => .ok (.typed, class_.value)
  | .filter start => do
    let offset ← offsetOf offsets start
    return (.filter, offset)
  | .finallyHandler => .ok (.finallyHandler, 0)
  | .faultHandler => .ok (.faultHandler, 0)

/-- The clause of a region in a stream with the given layout. -/
def toClause (region : Region) (offsets : List Nat) : Except Fault Clause := do
  let (kind, classOrFilter) ← clauseOfHandler offsets region.handler
  let tryOffset ← offsetOf offsets region.tryStart
  let handlerOffset ← offsetOf offsets region.handlerStart
  let tryEnd ← endOffset offsets region.tryEnd
  let handlerEnd ← endOffset offsets region.handlerEnd
  return {
    flags := kind.flags
    tryOffset
    tryLength := extent tryOffset tryEnd
    handlerOffset
    handlerLength := extent handlerOffset handlerEnd
    classOrFilter }

end Region

end CilCapture.Body
