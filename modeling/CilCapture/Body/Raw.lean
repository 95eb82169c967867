import CilCapture.Body.Clause
import CilCapture.Fault

/-!
# The body format

A method body in a module starts with a header of one byte (tiny: the code size in its upper six
bits) or of at least twelve (fat: flags and header size, maximum stack, code size, token of the
locals). The code follows. Behind the code of a fat body that says so, from the next multiple of
four on, stand sections of exception clauses, each of which says whether another one follows;
clauses take twelve bytes in small sections and twenty-four in fat ones.
-/

namespace CilCapture.Body

structure RawBody where
  maxStack : UInt16
  initLocals : Bool
  /-- The signature of the locals, null if there are none. -/
  localsToken : Token
  headerSize : Nat
  code : Bytes
  clauses : List Clause
  deriving DecidableEq, Repr

def fatHeaderSize : Nat := 12

/-- Bytes of a clause in a fat section. -/
def fatClauseSize : Nat := 24

/-- Bytes of a clause in a small section. -/
def smallClauseSize : Nat := 12

/-- The number of `width` bytes at `offset`. -/
def numberAt (width offset : Nat) (data : Bytes) : Except Fault Nat :=
  match Bytes.readNat width (data.drop offset) with
  | some (value, _) => .ok value
  | none => .error .outOfBounds

/-- The word at `offset`, widened from `width` bytes. -/
def wordAt (width offset : Nat) (data : Bytes) : Except Fault UInt32 :=
  UInt32.ofNat <$> numberAt width offset data

/-- The clause of a fat section at `offset`. -/
def fatClauseAt (data : Bytes) (offset : Nat) : Except Fault Clause := do
  let flags ← wordAt 4 offset data
  let tryOffset ← wordAt 4 (offset + 4) data
  let tryLength ← wordAt 4 (offset + 8) data
  let handlerOffset ← wordAt 4 (offset + 12) data
  let handlerLength ← wordAt 4 (offset + 16) data
  let classOrFilter ← wordAt 4 (offset + 20) data
  return { flags, tryOffset, tryLength, handlerOffset, handlerLength, classOrFilter }

/-- The clause of a small section at `offset`: narrower offsets and lengths. -/
def smallClauseAt (data : Bytes) (offset : Nat) : Except Fault Clause := do
  let flags ← wordAt 2 offset data
  let tryOffset ← wordAt 2 (offset + 2) data
  let tryLength ← wordAt 1 (offset + 4) data
  let handlerOffset ← wordAt 2 (offset + 5) data
  let handlerLength ← wordAt 1 (offset + 7) data
  let classOrFilter ← wordAt 4 (offset + 8) data
  return { flags, tryOffset, tryLength, handlerOffset, handlerLength, classOrFilter }

/-- Whether a flag of a section header is set. -/
def hasSectionFlag (header flag : Nat) : Bool := header / flag % 2 == 1

def clauseSection : Nat := 0x01

/-- The section's clauses are fat and its size takes three bytes. -/
def fatSection : Nat := 0x40

def moreSections : Nat := 0x80

/-- The clauses of the section at `cursor` and the offset of the next section, if there is one.
Nothing when no section of clauses stands there. -/
def sectionAt (data : Bytes) (cursor : Nat) :
    Except Fault (Option (List Clause × Option Nat)) := do
  if data.length < cursor + 4 then return none
  let header ← numberAt 1 cursor data
  if !hasSectionFlag header clauseSection then return none
  let fat := hasSectionFlag header fatSection
  let size ← if fat then numberAt 3 (cursor + 1) data else numberAt 1 (cursor + 1) data
  if size < 4 ∨ data.length < cursor + size then throw .outOfBounds
  let clauses ←
    if fat then
      (List.range ((size - 4) / fatClauseSize)).mapM fun index =>
        fatClauseAt data (cursor + 4 + fatClauseSize * index)
    else
      (List.range ((size - 4) / smallClauseSize)).mapM fun index =>
        smallClauseAt data (cursor + 4 + smallClauseSize * index)
  let next :=
    if hasSectionFlag header moreSections then some (Bytes.alignFour (cursor + size)) else none
  return some (clauses, next)

/-- The clauses of the sections from `cursor` on. Each section takes at least four bytes, so `fuel`
need not exceed the length of the data. -/
def sectionsFrom (data : Bytes) : (fuel cursor : Nat) → Except Fault (List Clause)
  | 0, _ => .ok []
  | fuel + 1, cursor => do
    match ← sectionAt data cursor with
    | none => return []
    | some (clauses, none) => return clauses
    | some (clauses, some next) => return clauses ++ (← sectionsFrom data fuel next)

def parseTiny (first : UInt8) (data : Bytes) : Except Fault RawBody :=
  let size := first.toNat / 4
  if data.length < size + 1 then .error .outOfBounds
  else .ok ⟨8, false, .null, 1, (data.drop 1).take size, []⟩

def parseFat (data : Bytes) : Except Fault RawBody := do
  if data.length < fatHeaderSize then throw .outOfBounds
  let start ← numberAt 2 0 data
  let maxStack ← numberAt 2 2 data
  let size ← numberAt 4 4 data
  let token ← wordAt 4 8 data
  let headerSize := start / 0x1000 * 4
  if headerSize < fatHeaderSize ∨ data.length < size + headerSize then throw .outOfBounds
  let clauses ←
    if start / 0x8 % 2 = 1 then
      sectionsFrom data data.length (Bytes.alignFour (headerSize + size))
    else pure []
  return {
    maxStack := UInt16.ofNat maxStack
    initLocals := start / 0x10 % 2 == 1
    localsToken := ⟨token⟩
    headerSize
    code := (data.drop headerSize).take size
    clauses }

/-- The parts of the body at the start of `data`; what follows the body is not looked at. -/
def RawBody.parse (data : Bytes) : Except Fault RawBody :=
  match data with
  | [] => .error (.malformed .emptyBody)
  | first :: _ =>
    if first.toNat % 4 = 2 then parseTiny first data
    else if first.toNat % 4 = 3 then parseFat data
    else .error (.malformed (.headerFormat first))

end CilCapture.Body
