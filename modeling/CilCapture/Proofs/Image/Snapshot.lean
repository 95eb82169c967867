import Mathlib.Data.List.Induction
import CilCapture.Image.Snapshot
import CilCapture.Proofs.Memory.Buffers

/-!
# The bytes of a snapshot

Where each byte of a file comes from that is put together from a mapped image: from the last section
of the table that is copied over its offset, else from the headers, else from nowhere
(`ImageLayout.origin?`). A snapshot succeeds exactly when the headers parse and all that is copied
can be read (`reconstruct_isOk_iff`); then every copy lies inside the file (`fits_of_copies`) and
every byte is the one at its origin (`shows_origin`).

Copies may cover each other and the headers, so the file is described by `getElem?_layPieces`, which
looks for the last piece that covers an offset and not for the only one.

Addresses of the image are computed by wrapping sums; below the bound on the base none of them
wraps. The parser of the headers is a parameter and is asked for nothing but its answer, and of the
memory only the laws of reading are used (`ReadableMemory`), since a snapshot never writes.
-/

namespace CilCapture.Image

open Memory

/-! ## Laying pieces -/

/-- Whether the piece holds the byte at an offset. -/
def Piece.covers (piece : Piece) (offset : Nat) : Bool :=
  piece.start ≤ offset && offset < piece.start + piece.bytes.length

/-- Pieces that end inside a file of a size. -/
def Fit (size : Nat) (pieces : List Piece) : Prop :=
  ∀ piece ∈ pieces, piece.start + piece.bytes.length ≤ size

/-- The last piece is laid over the ones before it. -/
theorem layPieces_concat (size : Nat) (pieces : List Piece) (last : Piece) :
    layPieces size (pieces ++ [last]) = (layPieces size pieces).overlay last.start last.bytes :=
  List.foldl_concat _ _ _ _

/-- Pieces that fit leave the file as long as it was made. -/
theorem length_layPieces {size : Nat} {pieces : List Piece} (fit : Fit size pieces) :
    (layPieces size pieces).length = size := by
  induction pieces using List.reverseRecOn with
  | nil => exact Bytes.length_zeros size
  | append_singleton pieces last ih =>
    obtain ⟨fit_before, fit_last⟩ := List.forall_mem_append.mp fit
    have before := ih fit_before
    have inside : last.start + last.bytes.length ≤ (layPieces size pieces).length := by
      rw [before]
      exact fit_last last List.mem_cons_self
    rw [layPieces_concat, Bytes.length_overlay inside, before]

/-- What the last piece that covers an offset has there stands there, and zero where none does. -/
theorem getElem?_layPieces {size : Nat} {pieces : List Piece} (fit : Fit size pieces)
    (offset : Nat) :
    (layPieces size pieces)[offset]? =
      match pieces.reverse.find? (·.covers offset) with
      | some piece => piece.bytes[offset - piece.start]?
      | none => (Bytes.zeros size)[offset]? := by
  induction pieces using List.reverseRecOn with
  | nil => rfl
  | append_singleton pieces last ih =>
    obtain ⟨fit_before, fit_last⟩ := List.forall_mem_append.mp fit
    have inside : last.start + last.bytes.length ≤ (layPieces size pieces).length := by
      rw [length_layPieces fit_before]
      exact fit_last last List.mem_cons_self
    rw [layPieces_concat, Bytes.getElem?_overlay inside, List.reverse_concat, List.find?_cons,
      ih fit_before]
    cases covered : last.covers offset with
    | true =>
      simp only [Piece.covers, Bool.and_eq_true, decide_eq_true_eq] at covered
      rw [if_pos covered]
    | false =>
      have outside : ¬(last.start ≤ offset ∧ offset < last.start + last.bytes.length) := by
        simpa [Piece.covers] using covered
      rw [if_neg outside]

/-! ## The size of the file -/

/-- No more is copied of a section than it has room for in the file. -/
theorem Section.copyLength_le (entry : Section) : entry.copyLength ≤ entry.rawSize.toNat := by
  unfold copyLength
  split
  · exact Nat.le_refl _
  · exact Nat.min_le_right _ _

namespace ImageLayout

/-- Where the parts of a file end: the headers, and each section. -/
def ends (layout : ImageLayout) : List Nat :=
  layout.sizeOfHeaders ::
    layout.sections.map fun entry => entry.rawPointer.toNat + entry.rawSize.toNat

/-- The size of the file is the greatest of the ends. -/
theorem fileSize_spec (layout : ImageLayout) :
    layout.fileSize ∈ layout.ends ∧ ∀ finish ∈ layout.ends, finish ≤ layout.fileSize :=
  List.max?_eq_some_iff.mp List.max?_cons'

/-- The headers fit in the file. -/
theorem headers_le_fileSize (layout : ImageLayout) : layout.sizeOfHeaders ≤ layout.fileSize :=
  layout.fileSize_spec.2 _ List.mem_cons_self

/-- No copy of a section goes over the end of the file. -/
theorem copy_le_fileSize {layout : ImageLayout} {entry : Section}
    (mem : entry ∈ layout.sections) :
    entry.rawPointer.toNat + entry.copyLength ≤ layout.fileSize := by
  have copied := entry.copyLength_le
  have inside := layout.fileSize_spec.2 _
    (List.mem_cons_of_mem _ (List.mem_map_of_mem (f := fun entry : Section =>
      entry.rawPointer.toNat + entry.rawSize.toNat) mem))
  omega

end ImageLayout

/-! ## What is copied -/

section

variable {W : Type} [AddressSpace W] {parser : HeaderParser} {base : Address} {world : W}

/-- Whether a range can be read. -/
def Readable (world : W) (address length : Nat) : Prop :=
  ∃ bytes, AddressSpace.read address length world = .ok bytes

/-- The piece that a section of the image at `base` is copied to. -/
structure Copies (base : Address) (world : W) (entry : Section) (piece : Piece) : Prop where
  start_eq : piece.start = entry.rawPointer.toNat
  read_eq : AddressSpace.read (base + entry.virtualAddress.toNat) entry.copyLength world =
    .ok piece.bytes

/-- The sections are copied just when each of them can be read in the image, one piece for each.
Below the bound no address of an image wraps. -/
theorem sectionPieces_eq_ok_iff (low : base < 0x4000000000000000) {sections : List Section}
    {pieces : List Piece} :
    sectionPieces base world sections = .ok pieces ↔
      List.Forall₂ (Copies base world) sections pieces := by
  induction sections generalizing pieces with
  | nil => simp [sectionPieces, eq_comm]
  | cons entry rest ih =>
    have inside : base + entry.virtualAddress.toNat < Address.limit :=
      Nat.lt_of_lt_of_le (Nat.add_lt_add low entry.virtualAddress.toNat_lt) (by decide)
    rw [sectionPieces, Address.advance_of_lt inside, bind_ok]
    simp only [bind_eq_ok, ih, List.forall₂_cons_left_iff]
    constructor
    · rintro ⟨bytes, read, pieces, copies, done⟩
      cases done
      exact ⟨_, pieces, ⟨rfl, read⟩, copies, rfl⟩
    · rintro ⟨⟨start, bytes⟩, pieces, ⟨start_eq, read⟩, copies, rfl⟩
      cases start_eq
      exact ⟨bytes, read, pieces, copies, rfl⟩

/-- A file is rebuilt just from a layout that is read, headers and sections that can be read, and
these laid over each other in order. -/
theorem reconstruct_eq_ok_iff (low : base < 0x4000000000000000) {file : Bytes} :
    reconstruct parser base world = .ok file ↔
      ∃ layout headers pieces, ImageLayout.read parser base world = .ok layout ∧
        AddressSpace.read base layout.sizeOfHeaders world = .ok headers ∧
        List.Forall₂ (Copies base world) layout.sections pieces ∧
        layPieces layout.fileSize (⟨0, headers⟩ :: pieces) = file := by
  simp only [reconstruct, bind_eq_ok, sectionPieces_eq_ok_iff low]
  constructor
  · rintro ⟨layout, parsed, headers, read, pieces, copies, done⟩
    exact ⟨layout, headers, pieces, parsed, read, copies, Except.ok.inj done⟩
  · rintro ⟨layout, headers, pieces, parsed, read, copies, rfl⟩
    exact ⟨layout, parsed, headers, read, pieces, copies, rfl⟩

/-- A snapshot succeeds exactly when the headers parse and all that is copied can be read. -/
theorem reconstruct_isOk_iff (low : base < 0x4000000000000000) :
    (∃ file, reconstruct parser base world = .ok file) ↔
      ∃ layout, ImageLayout.read parser base world = .ok layout ∧
        Readable world base layout.sizeOfHeaders ∧
        ∀ entry ∈ layout.sections,
          Readable world (base + entry.virtualAddress.toNat) entry.copyLength := by
  simp only [reconstruct_eq_ok_iff low]
  constructor
  · rintro ⟨file, layout, headers, pieces, parsed, read, copies, -⟩
    refine ⟨layout, parsed, ⟨headers, read⟩, ?_⟩
    intro entry mem
    obtain ⟨piece, -, copy⟩ := exists_of_mem_left copies mem
    exact ⟨piece.bytes, copy.read_eq⟩
  · rintro ⟨layout, parsed, ⟨headers, read⟩, readable⟩
    have each : ∀ entry ∈ layout.sections, ∃ piece, Copies base world entry piece := by
      intro entry mem
      obtain ⟨bytes, read⟩ := readable entry mem
      exact ⟨⟨entry.rawPointer.toNat, bytes⟩, rfl, read⟩
    obtain ⟨pieces, copies⟩ := exists_forall₂ each
    exact ⟨_, layout, headers, pieces, parsed, read, copies, rfl⟩

end

/-! ## Where the bytes come from -/

/-- Whether a place lies in what is copied of the section, when that stands at `start`. -/
def Section.spans (start : Section → UInt32) (entry : Section) (place : Nat) : Bool :=
  (start entry).toNat ≤ place && place < (start entry).toNat + entry.copyLength

namespace ImageLayout

/-- Where a byte goes when what is copied of each section is moved from its `source` to its
`target`: the first listed section that spans the place decides, then the headers do, which stay. -/
def moved? (layout : ImageLayout) (source target : Section → UInt32) (listed : List Section)
    (place : Nat) : Option Nat :=
  match listed.find? (·.spans source place) with
  | some entry => some ((target entry).toNat + (place - (source entry).toNat))
  | none => if place < layout.sizeOfHeaders then some place else none

/-- How far into the image the byte at an offset of the file comes from; of several sections that
cover the offset the last one of the table decides. -/
def origin? (layout : ImageLayout) (offset : Nat) : Option Nat :=
  layout.moved? Section.rawPointer Section.virtualAddress layout.sections.reverse offset

end ImageLayout

section

variable {W : Type} [AddressSpace W] {possible : W → Prop} {base : Address} {world : W}

/-- The byte at an address of a memory: some read covers the address, and each that does shows the
byte. -/
structure Shows (world : W) (address : Nat) (byte : UInt8) : Prop where
  covered : ∃ start length, Readable world start length ∧ start ≤ address ∧
    address < start + length
  shown : ∀ {start length : Nat} {bytes : Bytes}, AddressSpace.read start length world = .ok bytes →
    start ≤ address → address < start + length → bytes[address - start]? = some byte

/-- A byte that some read shows is shown by every read that covers it, since reads agree. -/
theorem shows_of_read (memory : ReadableMemory possible) (here : possible world)
    {start length : Nat}
    {bytes : Bytes} (read : AddressSpace.read start length world = .ok bytes) {index : Nat}
    {byte : UInt8} (there : bytes[index]? = some byte) : Shows world (start + index) byte := by
  have bound : index < length := by
    rw [← memory.length_read here read]
    exact (List.getElem?_eq_some_iff.mp there).1
  constructor
  · exact ⟨start, length, ⟨bytes, read⟩, Nat.le_add_right _ _, by omega⟩
  · intro start' length' bytes' read' above below
    have meet : start' + (start + index - start') = start + index := by omega
    rw [← there]
    exact memory.read_agree here read' read meet (by omega) bound

/-- What is copied fits into the file. -/
theorem fits_of_copies (memory : ReadableMemory possible) (here : possible world)
    {layout : ImageLayout} {headers : Bytes} {pieces : List Piece}
    (read : AddressSpace.read base layout.sizeOfHeaders world = .ok headers)
    (copies : List.Forall₂ (Copies base world) layout.sections pieces) :
    Fit layout.fileSize (⟨0, headers⟩ :: pieces) := by
  refine List.forall_mem_cons.mpr ⟨?_, ?_⟩
  · rw [memory.length_read here read, Nat.zero_add]
    exact layout.headers_le_fileSize
  · intro piece mem
    obtain ⟨entry, entry_mem, copy⟩ := exists_of_mem_right copies mem
    rw [copy.start_eq, memory.length_read here copy.read_eq]
    exact ImageLayout.copy_le_fileSize entry_mem

/-- Every byte of a file that is put together is the one at its origin, or zero if it has none. -/
theorem shows_origin (memory : ReadableMemory possible) (here : possible world)
    {layout : ImageLayout} {headers : Bytes} {pieces : List Piece}
    (read : AddressSpace.read base layout.sizeOfHeaders world = .ok headers)
    (copies : List.Forall₂ (Copies base world) layout.sections pieces) {offset : Nat} {byte : UInt8}
    (there : (layPieces layout.fileSize (⟨0, headers⟩ :: pieces))[offset]? = some byte) :
    match layout.origin? offset with
    | some distance => Shows world (base + distance) byte
    | none => byte = 0 := by
  have same : ∀ entry piece, Copies base world entry piece →
      entry.spans Section.rawPointer offset = piece.covers offset := by
    intro entry piece copy
    rw [Section.spans, Piece.covers, copy.start_eq, memory.length_read here copy.read_eq]
  have found := find?_forall₂ (List.rel_reverse copies) same
  rw [getElem?_layPieces (fits_of_copies memory here read copies), List.reverse_cons,
    List.find?_append] at there
  unfold ImageLayout.origin? ImageLayout.moved?
  -- the sections are laid in order, so the last one over an offset is the first from behind
  cases entry_eq : layout.sections.reverse.find? (·.spans Section.rawPointer offset) with
  | some entry =>
    rw [entry_eq] at found
    cases piece_eq : pieces.reverse.find? (·.covers offset) with
    | none =>
      rw [piece_eq] at found
      cases found
    | some piece =>
      rw [piece_eq] at found there
      obtain ⟨copy⟩ := found
      have shown := shows_of_read memory here copy.read_eq there
      rwa [copy.start_eq, Nat.add_assoc] at shown
  | none =>
    rw [entry_eq] at found
    cases piece_eq : pieces.reverse.find? (·.covers offset) with
    | some piece =>
      rw [piece_eq] at found
      cases found
    | none =>
      rw [piece_eq, Option.none_or] at there
      have covered : Piece.covers ⟨0, headers⟩ offset = decide (offset < layout.sizeOfHeaders) := by
        simp [Piece.covers, memory.length_read here read]
      rw [List.find?_cons, covered, List.find?_nil] at there
      -- no section covers the offset: it is the headers', or filler
      by_cases inside : offset < layout.sizeOfHeaders
      · rw [decide_eq_true inside] at there
        rw [if_pos inside]
        exact shows_of_read memory here read there
      · rw [decide_eq_false inside] at there
        rw [if_neg inside]
        exact List.eq_of_mem_replicate (List.mem_of_getElem? there)

/-- A file as long as the furthest end of its parts, with every byte the one at its origin and zero
where it has none. -/
structure Pictures (base : Address) (world : W) (layout : ImageLayout) (file : Bytes) : Prop where
  length_mem : file.length ∈ layout.ends
  length_max : ∀ finish ∈ layout.ends, finish ≤ file.length
  byte_origin : ∀ {offset : Nat} {byte : UInt8}, file[offset]? = some byte →
    match layout.origin? offset with
    | some distance => Shows world (base + distance) byte
    | none => byte = 0

/-- What is rebuilt pictures the image that the layout was read from. -/
theorem pictures_of_reconstruct (memory : ReadableMemory possible) (here : possible world)
    (low : base < 0x4000000000000000) {file : Bytes}
    (done : reconstruct parser base world = .ok file) :
    ∃ layout, ImageLayout.read parser base world = .ok layout ∧
      Pictures base world layout file := by
  obtain ⟨layout, headers, pieces, parsed, read, copies, rfl⟩ := (reconstruct_eq_ok_iff low).mp done
  have length_eq := length_layPieces (fits_of_copies memory here read copies)
  refine ⟨layout, parsed, ?_, ?_, shows_origin memory here read copies⟩
  · rw [length_eq]
    exact layout.fileSize_spec.1
  · rw [length_eq]
    exact layout.fileSize_spec.2

end

end CilCapture.Image
