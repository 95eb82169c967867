import CilCapture.Signature.Reader

/-!
# Cursors over byte strings

A cursor is a place in a byte string. Reading moves it behind what was read; a read that does not
fit fails and leaves it where it was. The bytes ahead are kept beside the place, so that reading on
costs no search.
-/

namespace CilCapture

structure Cursor where
  data : Bytes
  position : Nat
  ahead : Bytes
  ahead_eq : ahead = data.drop position
  position_le : position ≤ data.length

namespace Cursor

def ofBytes (data : Bytes) : Cursor := ⟨data, 0, data, rfl, Nat.zero_le _⟩

/-- Bytes from the place to the end. -/
def remaining (cursor : Cursor) : Nat := cursor.ahead.length

def hasMore (cursor : Cursor) : Bool := !cursor.ahead.isEmpty

/-- What remains is what lies ahead, also when the place is behind the end. -/
theorem remaining_eq (cursor : Cursor) :
    cursor.remaining = cursor.data.length - cursor.position := by
  rw [remaining, cursor.ahead_eq, List.length_drop]

/-- Moves to a place between the start and the end of the string. -/
def seek (position : Nat) : EStateM Fault Cursor Unit := fun cursor =>
  if h : position ≤ cursor.data.length then
    .ok () ⟨cursor.data, position, cursor.data.drop position, rfl, h⟩
  else .error .outOfBounds cursor

/-- Moves forward by at most the bytes that remain. -/
def advance (step : Nat) : EStateM Fault Cursor Unit := fun cursor =>
  if h : step ≤ cursor.remaining then
    .ok () ⟨cursor.data, cursor.position + step, cursor.ahead.drop step, by
      rw [cursor.ahead_eq, List.drop_drop], by
      have := cursor.remaining_eq; have := cursor.position_le; omega⟩
  else .error .outOfBounds cursor

/-- Moves forward to the next multiple of `alignment`; there is none of zero. -/
def align (alignment : Nat) : EStateM Abort Cursor Unit := fun cursor =>
  if alignment = 0 then .error .breakdown cursor
  else
    match advance ((alignment - cursor.position % alignment) % alignment) cursor with
    | .ok () moved => .ok () moved
    | .error fault same => .error (.fault fault) same

def peek (cursor : Cursor) : Except Fault UInt8 :=
  match cursor.ahead with
  | byte :: _ => .ok byte
  | [] => .error .outOfBounds

def bytes (count : Nat) : EStateM Fault Cursor Bytes := fun cursor =>
  match advance count cursor with
  | .ok () moved => .ok (cursor.ahead.take count) moved
  | .error fault same => .error fault same

/-- The next number of `width` bytes, least significant first. -/
def number (width : Nat) : EStateM Fault Cursor Nat := do
  return (← bytes width).toNat

def next : EStateM Fault Cursor UInt8 := fun cursor =>
  match h : cursor.ahead with
  | byte :: rest =>
    .ok byte ⟨cursor.data, cursor.position + 1, rest, by
      rw [← List.drop_drop, ← cursor.ahead_eq, h]; rfl, by
      have := cursor.remaining_eq; have := cursor.position_le
      rw [remaining, h, List.length_cons] at *; omega⟩
  | [] => .error .outOfBounds cursor

instance : Signature.ByteSource Cursor := ⟨next⟩

/-- The next compressed integer, put together from the bits of its bytes. -/
def integer : EStateM Fault Cursor Nat := do
  let lead ← next
  if lead &&& 0x80 = 0 then return lead.toNat
  else if lead &&& 0xC0 = 0x80 then
    let low ← next
    return ((lead.toUInt32 &&& 0x3F) <<< 8 ||| low.toUInt32).toNat
  else if lead &&& 0xE0 = 0xC0 then
    let high ← next
    let middle ← next
    let low ← next
    return ((lead.toUInt32 &&& 0x1F) <<< 24 ||| high.toUInt32 <<< 16 ||| middle.toUInt32 <<< 8 |||
      low.toUInt32).toNat
  else throw (.malformed (.compressedLead lead))

instance : Signature.Reader Cursor := ⟨integer⟩

end Cursor

end CilCapture
