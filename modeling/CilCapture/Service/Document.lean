import CilCapture.Rehearsal.Packer

/-!
# Documents

Requests to the library and its answers are documents: null, flags, numbers, texts, lists, and
records of named entries. Reading one comes to a value or to a refusal. Addresses and tokens are
written as texts in hexadecimal and may be given as such; bytes are two hexadecimal digits each.
Where an operation did not return, its part of the answer is `broken`, and with it the whole of the
answer (`Document.isBroken`).
-/

namespace CilCapture.Service

/-- Data in which requests arrive and answers leave. -/
inductive Document where
  | null
  | flag (value : Bool)
  | number (value : Int)
  | text (content : String)
  | list (items : List Document)
  | record (entries : List (String × Document))
  /-- What never came about. -/
  | broken
  deriving Inhabited

abbrev Fields := List (String × Document)

/-- Why a request is not carried out. -/
inductive Refusal where
  /-- It is no request; the reason is a sentence. -/
  | malformed (reason : String)
  /-- What it describes cannot be set up. -/
  | breakdown
  deriving DecidableEq, Repr

/-- What was read, or why nothing was. -/
abbrev Decoded := Except Refusal

def setUp {α : Type} : Except Fault α → Decoded α
  | .ok value => .ok value
  | .error _ => .error .breakdown

instance : Coe String Document := ⟨.text⟩

instance : Coe Bool Document := ⟨.flag⟩

namespace Document

mutual

/-- Whether a part of a document never came about. -/
def isBroken : Document → Bool
  | .broken => true
  | .list items => anyBroken items
  | .record entries => anyEntryBroken entries
  | _ => false

/-- Whether a part of a list never came about. -/
def anyBroken : List Document → Bool
  | [] => false
  | item :: rest => item.isBroken || anyBroken rest

/-- Whether a part of a record never came about. -/
def anyEntryBroken : List (String × Document) → Bool
  | [] => false
  | (_, entry) :: rest => entry.isBroken || anyEntryBroken rest

end

/-! ## Writing -/

def ofNat (value : Nat) : Document := .number value

def ofInt (value : Int) : Document := .number value

def ofAddress (value : Address) : Document := .text (Rehearsal.handleText value)

def ofBytes (bytes : Bytes) : Document := .text (Rehearsal.hexText bytes)

def ofToken (token : Token) : Document := .text token.text

def ofUnit (_ : Unit) : Document := .null

def listOf {α : Type} (write : α → Document) (items : List α) : Document := .list (items.map write)

def orNull {α : Type} (write : α → Document) : Option α → Document
  | some value => write value
  | none => .null

/-! ## Reading -/

/-- The entry of a name, unless it is null. -/
def field? (key : String) : Document → Option Document
  | .record entries =>
    match entries.lookup key with
    | none | some .null => none
    | some value => some value
  | _ => none

/-- The number that a text spells: in hexadecimal behind a mark, in decimal otherwise. -/
def spelledNumber? : List Char → Option Int
  | '0' :: 'x' :: digits => (Numeral.read? 16 digits).map Int.ofNat
  | '-' :: digits => (Numeral.read? 10 digits).map fun value => -(value : Int)
  | digits => (Numeral.read? 10 digits).map Int.ofNat

def asInt (request : Document) : Decoded Int :=
  let number :=
    match request with
    | .number value => some value
    | .text content => spelledNumber? content.toList
    | _ => none
  number.elim (.error (.malformed "number expected")) .ok

def asNat (request : Document) : Decoded Nat := do return (← asInt request).toNat

def asBool : Document → Decoded Bool
  | .flag value => .ok value
  | _ => .error (.malformed "flag expected")

def asText : Document → Decoded String
  | .text content => .ok content
  | _ => .error (.malformed "text expected")

def asList : Document → Decoded (List Document)
  | .list items => .ok items
  | _ => .error (.malformed "list expected")

def spelledBytes : List Char → Decoded Bytes
  | [] => .ok []
  | [_] => .error (.malformed "odd number of digits")
  | high :: low :: rest => do
    match Numeral.digitValue? 16 high, Numeral.digitValue? 16 low with
    | some high, some low => return UInt8.ofNat (high * 16 + low) :: (← spelledBytes rest)
    | _, _ => throw (.malformed "hexadecimal digit expected")

def asBytes (request : Document) : Decoded Bytes := do spelledBytes (← asText request).toList

def asWord (request : Document) : Decoded UInt32 := do return UInt32.ofNat (← asNat request)

def asToken (request : Document) : Decoded Token := do return ⟨← asWord request⟩

def nullable {α : Type} (read : Document → Decoded α) : Document → Decoded (Option α)
  | .null => .ok none
  | request => some <$> read request

/-- Reads an entry that there may be. -/
def optional {α : Type} (read : Document → Decoded α) (key : String) (request : Document) :
    Decoded (Option α) :=
  match field? key request with
  | some value => some <$> read value
  | none => .ok none

/-- Reads an entry; where there is none, it is `absent`. -/
def orElse {α : Type} (absent : α) (read : Document → Decoded α) (key : String)
    (request : Document) : Decoded α := do
  return (← optional read key request).getD absent

/-- Reads an entry; where there is none, null is read. -/
def required {α : Type} (read : Document → Decoded α) (key : String) (request : Document) :
    Decoded α :=
  read ((field? key request).getD .null)

/-- The number of an entry, zero if there is none. -/
def natAt : String → Document → Decoded Nat := orElse 0 asNat

/-- The flag of an entry, down if there is none. -/
def boolAt : String → Document → Decoded Bool := orElse false asBool

/-- The text of an entry, empty if there is none. -/
def textAt : String → Document → Decoded String := orElse "" asText

/-- The bytes of an entry, none if there is no entry. -/
def bytesAt : String → Document → Decoded Bytes := orElse [] asBytes

/-- The list of an entry, empty if there is none. -/
def listAt {α : Type} (read : Document → Decoded α) (key : String) (request : Document) :
    Decoded (List α) := do
  match field? key request with
  | some value => (← asList value).mapM read
  | none => return []

/-- An item of a list, null if there is none. -/
def itemAt (index : Nat) (items : List Document) : Document := items[index]?.getD .null

def pairOf {α β : Type} (first : Document → Decoded α) (second : Document → Decoded β)
    (request : Document) : Decoded (α × β) := do
  let items ← asList request
  return (← first (itemAt 0 items), ← second (itemAt 1 items))

/-- The entries of a record in an entry, with their names read as numbers. -/
def numberedAt {α : Type} (read : Document → Decoded α) (key : String) (request : Document) :
    Decoded (List (Nat × α)) :=
  match field? key request with
  | none => .ok []
  | some (.record entries) =>
    entries.mapM fun (name, entry) => do return (← asNat (.text name), ← read entry)
  | some _ => .error (.malformed "record expected")

def asRange (request : Document) : Decoded Memory.AddressRange := do
  let (start, length) ← pairOf asNat asNat request
  return { start, length }

/-- The name of a step and its arguments. -/
def stepParts : Document → Decoded (String × List Document)
  | .text name => .ok (name, [])
  | .list (name :: arguments) => do return (← asText name, arguments)
  | _ => .error (.malformed "step expected")

def stepsAt : Document → Decoded (List Document) := listAt .ok "steps"

end Document

end CilCapture.Service
