import CilCapture.Body.Raw
import CilCapture.Body.Region
import CilCapture.Il.Decode
import CilCapture.Il.Encode

/-!
# Method bodies

A method body in terms of instructions: branch targets and exception regions name instructions by
index. A body is written with a fat header, which can express every body, and its clauses in one
fat section. The signature of the locals is not part of the encoding, only its token is.
-/

namespace CilCapture.Body

structure MethodBody where
  maxStack : UInt16
  initLocals : Bool
  /-- The complete local signature, if the method has locals. -/
  localSignature : Option Bytes
  instructions : List Il.Instruction
  regions : List Region
  deriving DecidableEq, Repr

/-- The greatest size of a fat section. -/
def greatestSection : Nat := 0x00FFFFFF

/-- Flags of the fat header, with the header's size of three words. -/
def MethodBody.headerFlags (body : MethodBody) : Nat :=
  0x3003 + (if body.initLocals then 0x10 else 0) + (if body.regions.isEmpty then 0 else 0x8)

namespace MethodBody

def codeSize (body : MethodBody) : Nat := Il.codeSize body.instructions

/-- The section that holds a body's clauses. -/
def encodeSection (regions : List Region) (offsets : List Nat) : Except Fault Bytes := do
  let size := 4 + fatClauseSize * regions.length
  if greatestSection < size then throw (.malformed (.tooManyClauses regions.length))
  let clauses ← regions.mapM fun region => region.toClause offsets
  return Bytes.ofNat 4 (clauseSection + fatSection + size * 256) ++
    (clauses.map Clause.encode).flatten

/-- The encoded body, its locals under the given token. -/
def encode (body : MethodBody) (localsToken : Token) : Except Fault Bytes := do
  let code ← Il.encode body.instructions
  let data := Bytes.ofNat 2 body.headerFlags ++ Bytes.ofNat 2 body.maxStack.toNat ++
    Bytes.ofNat 4 code.length ++ Bytes.ofNat 4 localsToken.value.toNat ++ code
  if body.regions.isEmpty then return data
  let section_ ← encodeSection body.regions (Il.layout body.instructions)
  return data ++ Bytes.zeros (Bytes.alignFour data.length - data.length) ++ section_

/-- The body that `data` starts with, without its locals. -/
def decode (data : Bytes) : Except Fault MethodBody := do
  let raw ← RawBody.parse data
  let instructions ← Il.decode raw.code
  let regions ← raw.clauses.mapM fun clause => Region.ofClause clause (Il.layout instructions)
  return {
    maxStack := raw.maxStack
    initLocals := raw.initLocals
    localSignature := none
    instructions
    regions }

end MethodBody

end CilCapture.Body
