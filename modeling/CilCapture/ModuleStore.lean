import CilCapture.Body.Method

/-!
# Modules

The rows of an opened module as a session uses them: method definitions with their bodies,
stand-alone signatures, static constructors and types. Rows are counted from one.
-/

namespace CilCapture

structure WriteOptions where
  /-- Keep every metadata row at its row id. -/
  keepRowIds : Bool
  /-- Keep the offsets into the heaps. -/
  keepOffsets : Bool
  /-- Write the captured maximum stacks instead of computing them anew. -/
  keepMaxStacks : Bool
  deriving DecidableEq, Repr

/-- The modules of type `M` can be read and changed; writing one changes the world. -/
class ModuleStore (M : Type) (W : outParam Type) where
  methodCount (module_ : M) : Nat
  /-- Whether a method has a body. -/
  hasBody (row : Nat) (module_ : M) : Except Fault Bool
  /-- The encoded body of a method, if it has one. -/
  methodBody (row : Nat) (module_ : M) : Except Fault (Option Bytes)
  replaceBody (row : Nat) (body : Body.MethodBody) : EStateM Fault M Unit
  /-- The static constructor of the module itself. -/
  globalConstructor (module_ : M) : Option Token
  /-- The static constructors of the types, in order. -/
  typeConstructors (module_ : M) : List Token
  signatureCount (module_ : M) : Nat
  /-- The blob of a stand-alone signature, if it has one. -/
  signature (row : Nat) (module_ : M) : Except Fault (Option Bytes)
  setSignature (row : Nat) (blob : Bytes) : EStateM Fault M Unit
  /-- Removes the types of a name; tells whether there was one. -/
  removeType (name : String) : EStateM Fault M Bool
  write (path : String) (options : WriteOptions) (module_ : M) : EStateM Fault W Unit

end CilCapture
