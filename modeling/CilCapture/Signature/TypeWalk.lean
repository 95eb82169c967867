import CilCapture.Signature.Source

/-!
# Walking type encodings

A type encoding is a tag and what the tag asks for: nothing, a compressed integer, further types,
counted lists. `skipType` reads exactly one encoding from a source, refusing tags it does not know
and types more than `maxNesting` levels below the root; `copyType` also appends what it read.
-/

namespace CilCapture.Signature

/-- What follows the tag of a type encoding. -/
inductive Shape where
  /-- Nothing. -/
  | primitive
  /-- A compressed integer. -/
  | indexed
  /-- One type. -/
  | wrapper
  /-- A compressed integer and a type. -/
  | modifier
  /-- A type, a rank, a counted list of sizes and a counted list of bounds. -/
  | array
  /-- A kind byte, a compressed integer and a counted list of types. -/
  | instantiation
  /-- A convention byte, a generic count if the convention has one, a count and one type more. -/
  | function
  deriving DecidableEq, Repr

/-- Whether a tag is a complete encoding. -/
def isPrimitive (tag : UInt8) : Bool :=
  (0x01 ≤ tag && tag ≤ 0x0E) || tag == 0x16 || tag == 0x18 || tag == 0x19 || tag == 0x1C

def Shape.ofTag? (tag : UInt8) : Option Shape :=
  if isPrimitive tag then some .primitive
  else if tag ∈ [0x11, 0x12, 0x13, 0x1E] then some .indexed
  else if tag ∈ [0x0F, 0x10, 0x1D, 0x45, 0x41] then some .wrapper
  else if tag ∈ [0x20, 0x1F] then some .modifier
  else if tag = 0x14 then some .array
  else if tag = 0x15 then some .instantiation
  else if tag = 0x1B then some .function
  else none

/-- Whether a convention byte announces a generic parameter count. -/
def isGenericConvention (convention : UInt8) : Bool := convention.toNat / 16 % 2 == 1

/-- Levels that a type may lie below the root. -/
def maxNesting : Nat := 64

section

variable {ρ : Type} [ByteSource ρ]

/-- A compressed integer and as many repetitions of a step. -/
def counted (step : EStateM Fault ρ Unit) : EStateM Fault ρ Unit := do
  let count ← readCompressed
  times count step

def skipInteger : EStateM Fault ρ Unit := do
  let _ ← readCompressed (ρ := ρ)

/-- What follows a tag of each shape, where `nested` passes over a type one level down. -/
def skipShape (nested : EStateM Fault ρ Unit) : Shape → EStateM Fault ρ Unit
  | .primitive => pure ()
  | .indexed => skipInteger
  | .wrapper => nested
  | .modifier => do
    skipInteger
    nested
  | .array => do
    nested
    skipInteger
    counted skipInteger
    counted skipInteger
  | .instantiation => do
    let _ ← ByteSource.next (ρ := ρ)
    skipInteger
    counted nested
  | .function => do
    let convention ← ByteSource.next (ρ := ρ)
    if isGenericConvention convention then skipInteger
    let parameters ← readCompressed
    times (parameters + 1) nested

/-- Passes over a type encoding with at most `levels` levels, the root among them. -/
def skipWithin : (levels : Nat) → EStateM Fault ρ Unit
  | 0 => throw (.malformed (.typeTooDeep maxNesting))
  | levels + 1 => do
    let tag ← ByteSource.next (ρ := ρ)
    match Shape.ofTag? tag with
    | some shape => skipShape (skipWithin levels) shape
    | none => throw (.malformed (.unknownElement tag))

def skipType : EStateM Fault ρ Unit := skipWithin (maxNesting + 1)

/-- Passes over one type encoding; the result also holds every byte that was read, on success and
on failure. -/
def copyType (source : ρ) : EStateM.Result Fault ρ Unit × Bytes :=
  match skipType (ρ := Recording ρ) ⟨source, []⟩ with
  | .ok () ⟨source, noted⟩ => (.ok () source, noted.reverse)
  | .error fault ⟨source, noted⟩ => (.error fault source, noted.reverse)

end

end CilCapture.Signature
