import CilCapture.Body.Method
import CilCapture.Signature.Locals
import CilCapture.Notice

/-!
# Assembling bodies

The compiler is handed a method in loose parts: code, maximum stack, local signature and raw
clauses. `assemble` makes a body of them. Tokens in the code pass through a resolver, so that
remapped tokens can be undone; string literals and the classes of clauses are kept as read. A local
signature that does not parse is left out, with a notice.
-/

namespace CilCapture.Body

/-- Maps a token in captured code to the token that the output module should use, by work of its
own kind. -/
abbrev TokenResolver (m : Type → Type) := Il.Opcode → Token → m Token

def TokenResolver.identity {m : Type → Type} [Monad m] : TokenResolver m := fun _ token =>
  pure token

structure Parts where
  code : Bytes
  maxStack : UInt32
  initLocals : Bool
  locals : Option Bytes
  clauses : List Clause
  deriving DecidableEq, Repr

section

variable {m : Type → Type} [Monad m]

/-- An instruction with its token resolved, unless it loads a string. -/
def resolveInstruction (resolve : TokenResolver m) (instruction : Il.Instruction) :
    m Il.Instruction :=
  match instruction.operand with
  | .token token =>
    if instruction.opcode.value = Il.Opcode.ldstr then pure instruction
    else do
      let resolved ← resolve instruction.opcode token
      return { instruction with operand := .token resolved }
  | _ => pure instruction

/-- Instructions with their tokens resolved, from the first on. -/
def resolveInstructions (resolve : TokenResolver m) :
    List Il.Instruction → m (List Il.Instruction)
  | [] => pure []
  | instruction :: rest => do
    let resolved ← resolveInstruction resolve instruction
    let rest ← resolveInstructions resolve rest
    return resolved :: rest

end

/-- A local signature if it parses, and a notice if it does not. -/
def keepLocals : Option Bytes → Option Bytes × List Notice
  | none => (none, [])
  | some blob =>
    match Signature.splitLocals blob with
    | .ok _ => (some blob, [])
    | .error fault => (none, [.localsDropped fault])

section

variable {m : Type → Type} [Monad m] [MonadExceptOf Abort m]

/-- A computation of faults among work that may also break down. -/
def liftFault {α : Type} : Except Fault α → m α
  | .ok value => pure value
  | .error fault => throw (.fault fault)

/-- The body of a method's parts, with the notices of what was left out. -/
def assemble (resolve : TokenResolver m) (parts : Parts) : m (MethodBody × List Notice) := do
  if 0xFFFF < parts.maxStack then throw (.fault (.malformed (.maxStack parts.maxStack)))
  let instructions ← liftFault (Il.decode parts.code)
  let instructions ← resolveInstructions resolve instructions
  let regions ← liftFault
    (parts.clauses.mapM fun clause => Region.ofClause clause (Il.layout instructions))
  let (localSignature, notices) := keepLocals parts.locals
  return ({
    maxStack := parts.maxStack.toUInt16
    initLocals := parts.initLocals
    localSignature
    instructions
    regions }, notices)

end

end CilCapture.Body
