import CilCapture.Signature.Source

/-!
# Compressed integers

The shortest of the three spellings that `readCompressed` reads. Values above `greatest` have none.
`appendCompressed` puts the bytes together from the bits of a word.
-/

namespace CilCapture.Signature

/-- The greatest value that a compressed integer can hold. -/
def greatest : Nat := 0x1FFFFFFF

def compress (value : Nat) : Except Fault Bytes :=
  if value < 0x80 then .ok [UInt8.ofNat value]
  else if value < 0x4000 then .ok [UInt8.ofNat (0x80 + value / 256), UInt8.ofNat value]
  else if value ≤ greatest then
    .ok [UInt8.ofNat (0xC0 + value / 256 / 256 / 256), UInt8.ofNat (value / 256 / 256),
      UInt8.ofNat (value / 256), UInt8.ofNat value]
  else .error (.malformed (.integerTooLarge value))

/-- Appends a word to a buffer as a compressed integer. -/
def appendCompressed (value : UInt32) : EStateM Fault Bytes Unit := do
  if value ≤ 0x7F then modify (· ++ [value.toUInt8])
  else if value ≤ 0x3FFF then
    modify (· ++ [(0x80 : UInt8) ||| (value >>> 8).toUInt8, value.toUInt8])
  else if value ≤ 0x1FFFFFFF then
    modify (· ++ [(0xC0 : UInt8) ||| (value >>> 24).toUInt8, (value >>> 16).toUInt8,
      (value >>> 8).toUInt8, value.toUInt8])
  else throw (.malformed (.integerTooLarge value.toNat))

end CilCapture.Signature
