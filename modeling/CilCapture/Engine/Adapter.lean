import CilCapture.Memory.Space

/-!
# Adapters between calling conventions

On x86 a routine that takes arguments in registers is called through a few bytes of code that move
the leading arguments between registers and stack below the return address and then continue at the
routine. On x64 every convention is the same. A relative call reaches two gigabytes to either side;
a target further away is reached through a jump placed near the call.
-/

namespace CilCapture.Engine

/-- The registers that pass arguments or hold the return address meanwhile. -/
inductive Register where
  | eax
  | ecx
  | edx
  deriving DecidableEq, Repr

inductive AdapterStep where
  | pop (register : Register)
  | push (register : Register)
  | pushImmediate (value : UInt32)
  | ret
  deriving DecidableEq, Repr

def Register.code : Register → UInt8
  | eax => 0
  | ecx => 1
  | edx => 2

def AdapterStep.encode : AdapterStep → Bytes
  | pop register => [0x58 + register.code]
  | push register => [0x50 + register.code]
  | pushImmediate value => 0x68 :: Bytes.ofNat 4 value.toNat
  | ret => [0xC3]

/-- The steps that move the leading arguments, none if the conventions agree. -/
def argumentMoves? (source target : Convention) : Except Fault (Option (List AdapterStep)) :=
  match source.normalized, target.normalized with
  | .thisCall, .stdCall => .ok (some [.pop .eax, .pop .ecx, .push .eax])
  | .fastCall, .stdCall => .ok (some [.pop .eax, .pop .ecx, .pop .edx, .push .eax])
  | .stdCall, .thisCall => .ok (some [.pop .eax, .push .ecx, .push .eax])
  | .stdCall, .fastCall => .ok (some [.pop .eax, .push .edx, .push .ecx, .push .eax])
  | a, b => if a = b then .ok none else .error (.unsupportedConvention source target)

/-- The code through which a routine at `target`, which expects convention `source`, can be called
with convention `called`; none is needed if the two agree. -/
def adapter (source called : Convention) (target : UInt32) : Except Fault (Option Bytes) := do
  match ← argumentMoves? source called with
  | none => return none
  | some moves =>
    let steps := moves ++ [AdapterStep.pushImmediate target, AdapterStep.ret]
    return some (steps.map AdapterStep.encode).flatten

def absoluteJumpSize : Nat := 14

/-- A jump to any address: `jmp qword ptr [rip]` and the address behind it. -/
def absoluteJump (target : Address) : Bytes :=
  [0xFF, 0x25, 0x00, 0x00, 0x00, 0x00] ++ Bytes.ofNat 8 target

/-- A state in which new executable code can be placed. -/
class CodeSpace (W : Type) where
  /-- Places code for the rest of the process; the result is its address. -/
  place (code : Bytes) : EStateM Fault W Address

section

variable {W : Type}

/-- An address that behaves like `address`, which expects convention `source`, and is called with
convention `called`. -/
def convert [CodeSpace W] (architecture : Architecture) (address : Address)
    (source called : Convention) : EStateM Fault W Address :=
  if architecture = .x64 then pure address
  else if Address.limit32 ≤ address then throw (.unsupportedArchitecture architecture)
  else
    match adapter source called (UInt32.ofNat address) with
    | .error fault => throw fault
    | .ok none => pure address
    | .ok (some code) => CodeSpace.place code

/-- The convention in which the library calls and is called. -/
def ownConvention : Convention := .stdCall

/-- An address at which the library can call a native routine of convention `source`, as a
function whose pointers take `width` bytes. -/
def callable [CodeSpace W] (architecture : Architecture) (width : Nat) (address : Address)
    (source : Convention) : EStateM Fault W Address :=
  if width ≠ Address.width then throw .notAFunctionPointer
  else convert architecture address source ownConvention

/-- An address at which native code of convention `called` can call a function of the library. -/
def nativeAddress [CodeSpace W] (architecture : Architecture) (address : Address)
    (called : Convention) : EStateM Fault W Address :=
  convert architecture address ownConvention called

/-- An address within reach of a relative call at `site` that continues at `target`: the target
itself or a new jump to it. -/
def nearTarget [Memory.AddressSpace W] (architecture : Architecture) (site target : Address) :
    EStateM Fault W Address :=
  if architecture = .x86 ∨ max site target - min site target < Memory.nearRange then pure target
  else do
    let stub ← Memory.AddressSpace.allocateNear site absoluteJumpSize
    Memory.AddressSpace.write stub (absoluteJump target)
    return stub

end

end CilCapture.Engine
