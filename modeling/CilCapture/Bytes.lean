/-!
# Byte strings

Everything the library reads or writes is a list of bytes, least significant byte first. A number
of `width` bytes is written by `Bytes.ofNat` and read back by `Bytes.toNat`; `Bytes.readNat` reads
one from the front of a string and hands back what follows, or nothing when too few bytes are left.
-/

namespace CilCapture

abbrev Bytes := List UInt8

namespace Bytes

/-- The `width` low bytes of `value`, least significant first. -/
def ofNat : (width value : Nat) → Bytes
  | 0, _ => []
  | width + 1, value => UInt8.ofNat value :: ofNat width (value / 256)

/-- The number whose bytes are given, least significant first. -/
def toNat : Bytes → Nat
  | [] => 0
  | byte :: rest => byte.toNat + 256 * toNat rest

/-- A number of `width` bytes from the front, with the bytes after it. -/
def readNat : (width : Nat) → Bytes → Option (Nat × Bytes)
  | 0, bytes => some (0, bytes)
  | _ + 1, [] => none
  | width + 1, byte :: rest =>
    match readNat width rest with
    | some (value, rest) => some (byte.toNat + 256 * value, rest)
    | none => none

/-- How many values `width` bytes can hold. -/
def capacity : (width : Nat) → Nat
  | 0 => 1
  | width + 1 => 256 * capacity width

/-- The `width` low bytes of a signed value in two's complement, least significant first. -/
def ofInt (width : Nat) (value : Int) : Bytes := ofNat width (value % (capacity width : Int)).toNat

/-- The string with `data` laid over it from `start`; it keeps its length when `data` fits. -/
def overlay (base : Bytes) (start : Nat) (data : Bytes) : Bytes :=
  base.take start ++ data ++ base.drop (start + data.length)

def zeros (count : Nat) : Bytes := List.replicate count 0

/-- The next multiple of four at or after `offset`. -/
def alignFour (offset : Nat) : Nat := (offset + 3) / 4 * 4

/-- A number is written in as many bytes as its width, whatever its value. -/
@[simp] theorem length_ofNat (width value : Nat) : (ofNat width value).length = width := by
  induction width generalizing value with
  | zero => rfl
  | succ width ih => simp [ofNat, ih]

/-- Reading takes back what was written, whatever follows. -/
theorem readNat_ofNat_append (width value : Nat) (rest : Bytes) :
    readNat width (ofNat width value ++ rest) = some (value % capacity width, rest) := by
  induction width generalizing value with
  | zero => simp [ofNat, readNat, capacity, Nat.mod_one]
  | succ width ih =>
    have byte : (UInt8.ofNat value).toNat = value % 256 := by simp
    rw [ofNat, List.cons_append, readNat, ih, byte, capacity, Nat.mod_mul]

end Bytes

end CilCapture
