import CilCapture.Fault

/-!
# Byte sources

Signatures are read byte by byte from a source that keeps its own place: a failing read leaves the
source where it stood, a failing sequence of reads leaves it after the bytes it did read.
-/

namespace CilCapture.Signature

/-- Something that hands out bytes one at a time. -/
class ByteSource (ρ : Type) where
  /-- The next byte; an error at the end of what is readable. -/
  next : EStateM Fault ρ UInt8

/-- A compressed integer: one byte below `0x80`, two bytes led by the bits `10`, or four bytes led
by the bits `110`, most significant first. -/
def readCompressed {ρ : Type} [ByteSource ρ] : EStateM Fault ρ Nat := do
  let lead := (← ByteSource.next (ρ := ρ)).toNat
  if lead < 0x80 then return lead
  else if lead < 0xC0 then
    let low ← ByteSource.next (ρ := ρ)
    return lead % 0x40 * 256 + low.toNat
  else if lead < 0xE0 then
    let high ← ByteSource.next (ρ := ρ)
    let middle ← ByteSource.next (ρ := ρ)
    let low ← ByteSource.next (ρ := ρ)
    return ((lead % 0x20 * 256 + high.toNat) * 256 + middle.toNat) * 256 + low.toNat
  else throw (.malformed (.compressedLead (UInt8.ofNat lead)))

/-- Does a step a number of times, until it fails. -/
def times {ρ : Type} : (count : Nat) → EStateM Fault ρ Unit → EStateM Fault ρ Unit
  | 0, _ => pure ()
  | count + 1, step => do
    step
    times count step

/-- A source that reads native memory without a known length: nothing is read past `limit` bytes,
and nothing at all through a null pointer. -/
structure RawSource where
  /-- The bytes from the pointer on that are not read yet; nothing for a null pointer. -/
  rest : Option Bytes
  consumed : Nat
  limit : Nat

namespace RawSource

/-- Most bytes that a walk over native memory reads. -/
def defaultLimit : Nat := 0x10000

/-- A source at the start of the memory that a pointer refers to. -/
def ofPointer (pointer : Option Bytes) (limit : Nat) : RawSource := ⟨pointer, 0, limit⟩

def next : EStateM Fault RawSource UInt8 := fun source =>
  if source.limit ≤ source.consumed then .error .outOfBounds source
  else
    match source.rest with
    | some (byte :: rest) =>
      .ok byte { source with rest := some rest, consumed := source.consumed + 1 }
    | _ => .error .outOfBounds source

instance : ByteSource RawSource := ⟨next⟩

end RawSource

/-- A source that notes every byte read through it, the latest first. -/
structure Recording (ρ : Type) where
  source : ρ
  noted : List UInt8

namespace Recording

variable {ρ : Type} [ByteSource ρ]

/-- The next byte of the inner source, noted. -/
def next : EStateM Fault (Recording ρ) UInt8 := fun recording =>
  match ByteSource.next recording.source with
  | .ok byte source => .ok byte ⟨source, byte :: recording.noted⟩
  | .error fault source => .error fault { recording with source }

instance : ByteSource (Recording ρ) := ⟨next⟩

end Recording

end CilCapture.Signature
