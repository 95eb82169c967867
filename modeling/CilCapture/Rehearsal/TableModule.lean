import CilCapture.ModuleStore

/-!
# Modules given as tables

A module whose rows are lists: encoded bodies, signature blobs, constructors and names of types.
Calls named in `failing` fail, before anything else is looked at.
-/

namespace CilCapture.Rehearsal

open Body

/-- A module given as tables; row `n` is the `n`th entry. -/
structure TableModule where
  bodies : List (Option Bytes)
  signatures : List (Option Bytes)
  globalConstructor : Option Token
  typeConstructors : List Token
  types : List String
  /-- The calls that fail. -/
  failing : List String
  deriving DecidableEq, Repr

namespace TableModule

def empty : TableModule := ⟨[], [], none, [], [], []⟩

/-- The fault of a call that fails. -/
def refuse (call : String) : Fault := .other (call ++ " failed")

/-- Fails if the call is one that does. -/
def allow (call : String) (module_ : TableModule) : Except Fault Unit :=
  if call ∈ module_.failing then .error (refuse call) else .ok ()

def entry (row : Nat) (rows : List (Option Bytes)) : Except Fault (Option Bytes) :=
  if row = 0 then .error (.other "no row 0")
  else
    match rows[row - 1]? with
    | some entry => .ok entry
    | none => .error (.other ("no row " ++ decimal row))

/-- The encoded body of a method, asked for by `call`. -/
def lookUpBody (call : String) (row : Nat) (module_ : TableModule) :
    Except Fault (Option Bytes) := do
  module_.allow (call ++ " " ++ decimal row)
  entry row module_.bodies

/-- The blob of a signature, asked for by `call`. -/
def lookUpSignature (call : String) (row : Nat) (module_ : TableModule) :
    Except Fault (Option Bytes) := do
  module_.allow (call ++ " " ++ decimal row)
  entry row module_.signatures

def methodBody (row : Nat) (module_ : TableModule) : Except Fault (Option Bytes) :=
  module_.lookUpBody "method_body" row

def signature (row : Nat) (module_ : TableModule) : Except Fault (Option Bytes) :=
  module_.lookUpSignature "standalone_signature" row

/-- Gives the locals of a body a row of their own, if it has locals; the result is its token. -/
def addLocals (body : MethodBody) : EStateM Fault TableModule Token := fun module_ =>
  match body.localSignature with
  | none => .ok .null module_
  | some blob =>
    let signatures := module_.signatures ++ [some blob]
    .ok (.ofParts Token.signatureTable (UInt32.ofNat signatures.length)) { module_ with signatures }

/-- Stores an encoded body behind a new row for its locals. -/
def replaceBody (row : Nat) (body : MethodBody) : EStateM Fault TableModule Unit := do
  let _ ← settle (lookUpBody "replace_body" row (← get))
  let token ← addLocals body
  let data ← settle (body.encode token)
  modify fun module_ => { module_ with bodies := module_.bodies.set (row - 1) (some data) }

def setSignature (row : Nat) (blob : Bytes) : EStateM Fault TableModule Unit := do
  let _ ← settle (lookUpSignature "set_standalone_signature" row (← get))
  modify fun module_ => { module_ with signatures := module_.signatures.set (row - 1) (some blob) }

/-- Removes the types of a name; tells whether there was one. -/
def removeType (name : String) : EStateM Fault TableModule Bool := do
  let module_ ← get
  settle (module_.allow ("remove_type " ++ name))
  set { module_ with types := module_.types.filter (· != name) }
  return name ∈ module_.types

end TableModule

end CilCapture.Rehearsal
