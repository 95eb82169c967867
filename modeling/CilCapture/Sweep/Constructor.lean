import CilCapture.Body.Method
import CilCapture.ModuleStore

/-!
# Choosing the static constructor

Running one static constructor makes the packer decrypt its metadata: that of the module itself, or
the first one of a type that does nothing but call a method. Bodies that do not decode are passed
over.
-/

namespace CilCapture.Sweep

open Body

/-- Whether code is a call of a method definition and a return, and nothing else. -/
def isTrampoline : List Il.Instruction → Bool
  | [call, ret] =>
    call.opcode.value == Il.Opcode.call &&
      (match call.token? with
        | some target => target.table == Token.methodTable
        | none => false) &&
      ret.opcode.value == Il.Opcode.ret
  | _ => false

/-- Whether a stored body is such a trampoline. -/
def storesTrampoline (data : Bytes) : Bool :=
  match MethodBody.decode data with
  | .ok body => isTrampoline body.instructions
  | .error _ => false

variable {M W : Type} [ModuleStore M W]

/-- The first constructor whose stored body is a trampoline. -/
def firstTrampoline (module_ : M) : List Token → Except Fault (Option Token)
  | [] => .ok none
  | token :: rest =>
    match ModuleStore.methodBody token.row.toNat module_ with
    | .error fault => .error fault
    | .ok (some data) =>
      if storesTrampoline data then .ok (some token) else firstTrampoline module_ rest
    | .ok none => firstTrampoline module_ rest

/-- The static constructor to run, if there is one. -/
def selectConstructor (module_ : M) : Except Fault (Option Token) :=
  match ModuleStore.globalConstructor module_ with
  | some token => .ok (some token)
  | none => firstTrampoline module_ (ModuleStore.typeConstructors module_)

end CilCapture.Sweep
