import CilCapture.Proofs.Body.Raw

/-!
# Bodies with chained sections

A body may have any number of clause sections, small and fat ones in any order. Each starts behind
the one before it, so where it stands depends on all the sizes before, and its kind decides how wide
its clauses are. `parse_chained` says that all of them are read, in order and to the last one.

The body is described by a structure whose fields carry their own bounds, so that a chain that does
not fit its size fields cannot be written down. Nothing is asked of the words of the header that the
reader does not look at, of the bytes between code and sections, or of what follows the last
section.

The proof goes through `sectionsFrom_of_chain`: reading by offsets is following the chain, because
every section is a multiple of four long and the first one is aligned.
-/

namespace CilCapture.Body

/-- A body with a fat header and a chain of sections, as it lies in memory. The header may be longer
than its fields, and other bytes may follow the last section. -/
structure Chained where
  /-- The format, the flags and, in the upper four bits, the words of the header. -/
  flags : UInt16
  maxStack : UInt16
  localsToken : Token
  /-- What the header has behind its fields. -/
  extra : Bytes
  code : Bytes
  /-- What stands between the code and the next multiple of four. -/
  gap : Bytes
  first : ClauseSection
  others : List ClauseSection
  trailing : Bytes
  fat : flags.toNat % 4 = 3
  sectioned : flags.toNat / 0x8 % 2 = 1
  extra_length : fatHeaderSize + extra.length = headerSizeOf flags.toNat
  /-- The header has a word for the size of the code. -/
  counted : code.length < 0x100000000
  gap_length : headerSizeOf flags.toNat + code.length + gap.length =
    Bytes.alignFour (headerSizeOf flags.toNat + code.length)

namespace Chained

def sections (body : Chained) : List ClauseSection := body.first :: body.others

def header (body : Chained) : Bytes :=
  fatHeader body.flags.toNat body.maxStack body.code.length body.localsToken ++ body.extra

def bytes (body : Chained) : Bytes :=
  body.header ++ body.code ++ body.gap ++ encodeChain body.first body.others ++ body.trailing

/-- Behind the code and the gap up to the next multiple of four there are the sections, and behind
them whatever follows. -/
theorem drop_bytes (body : Chained) :
    body.bytes.drop (Bytes.alignFour (headerSizeOf body.flags.toNat + body.code.length)) =
      encodeChain body.first body.others ++ body.trailing := by
  have front_length : (body.header ++ body.code ++ body.gap).length =
      Bytes.alignFour (headerSizeOf body.flags.toNat + body.code.length) := by
    rw [← body.gap_length, ← body.extra_length]
    simp only [header, List.length_append, length_fatHeader]
  rw [bytes, List.append_assoc, List.drop_left' front_length]

end Chained

/-- A body with a chain of sections is read as its header says, with exactly its code and the
clauses of every section, one section after another. -/
theorem parse_chained (body : Chained) :
    RawBody.parse body.bytes = .ok {
      maxStack := body.maxStack
      initLocals := body.flags.toNat / 0x10 % 2 == 1
      localsToken := body.localsToken
      headerSize := headerSizeOf body.flags.toNat
      code := body.code
      clauses := body.sections.flatMap (·.clauses) } := by
  have data_eq : body.bytes =
      fatHeader body.flags.toNat body.maxStack body.code.length body.localsToken ++ (body.extra ++
        (body.code ++ (body.gap ++ (encodeChain body.first body.others ++ body.trailing)))) := by
    simp only [Chained.bytes, Chained.header, List.append_assoc]
  refine parse_of_parts body.fat body.flags.toNat_lt body.extra_length body.counted data_eq ?_
  rw [if_pos body.sectioned]
  exact sectionsFrom_of_chain (Bytes.four_dvd_alignFour _) body.drop_bytes

/-- A header of four words, five bytes of code, and a small, a fat and again a small section, whose
kinds and gaps hold bits and bytes without a meaning. -/
def alternating : Chained where
  flags := 0x4F1B
  maxStack := 2
  localsToken := ⟨0x11000009⟩
  extra := [0xAA, 0xBB, 0xCC, 0xDD]
  code := [0x00, 0xDE, 0x01, 0xDC, 0x2A]
  gap := [0xEE, 0xEE, 0xEE]
  first := {
    form := .small
    clauses := [⟨2, 0, 3, 3, 1, 0xDEADBEEF⟩, ⟨0xFFFF, 0xFFFF, 0xFF, 0xFFFF, 0xFF, 0xFFFFFFFF⟩]
    spare := ⟨5, by decide⟩
    reserved := [0x12, 0x34]
    fits := by decide
    few := by decide
    reserved_length := rfl }
  others := [
    fatBlock [⟨0x18, 0, 0x10000, 3, 2, 0x02000007⟩] (by decide),
    { form := .small
      clauses := [⟨4, 1, 2, 3, 4, 0⟩]
      spare := ⟨31, by decide⟩
      reserved := [0, 0]
      fits := by decide
      few := by decide
      reserved_length := rfl }]
  trailing := [0x01, 0xFF, 0xFF]
  fat := by decide
  sectioned := by decide
  extra_length := by decide
  counted := by decide
  gap_length := by decide

/-- A header of sixteen bytes, a small section with a spare kind bit, a fat and another small one,
and bytes behind them that no section claims. -/
theorem parse_chained_alternating :
    RawBody.parse [
      0x1B, 0x4F, 2, 0, 5, 0, 0, 0, 9, 0, 0, 0x11, 0xAA, 0xBB, 0xCC, 0xDD,
      0x00, 0xDE, 0x01, 0xDC, 0x2A, 0xEE, 0xEE, 0xEE,
      0x8B, 28, 0x12, 0x34, 2, 0, 0, 0, 3, 3, 0, 1, 0xEF, 0xBE, 0xAD, 0xDE,
      0xFF, 0xFF, 0xFF, 0xFF, 0xFF, 0xFF, 0xFF, 0xFF, 0xFF, 0xFF, 0xFF, 0xFF,
      0xC1, 28, 0, 0, 0x18, 0, 0, 0, 0, 0, 0, 0, 0, 0, 1, 0, 3, 0, 0, 0, 2, 0, 0, 0, 7, 0, 0, 2,
      0x3F, 16, 0, 0, 4, 0, 1, 0, 2, 3, 0, 4, 0, 0, 0, 0, 0x01, 0xFF, 0xFF] =
    .ok ⟨2, true, ⟨0x11000009⟩, 16, [0x00, 0xDE, 0x01, 0xDC, 0x2A], [
      ⟨2, 0, 3, 3, 1, 0xDEADBEEF⟩, ⟨0xFFFF, 0xFFFF, 0xFF, 0xFFFF, 0xFF, 0xFFFFFFFF⟩,
      ⟨0x18, 0, 0x10000, 3, 2, 0x02000007⟩, ⟨4, 1, 2, 3, 4, 0⟩]⟩ :=
  parse_chained alternating

end CilCapture.Body
