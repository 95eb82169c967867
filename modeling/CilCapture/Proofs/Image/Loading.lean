import CilCapture.Proofs.Image.Snapshot

/-!
# Files and the images they are mapped to

A loader puts the headers of a file at the front of an image and each section at its virtual address
(`ImageLayout.mapFile`). Where headers and sections have ranges of their own, in the file and in the
image (`Loadable`), both ways undo each other: a snapshot of the mapped image has the file's
headers, and of every section the bytes that were mapped. Together with what a snapshot is of any
memory, this is `snapshot_faithful`.

The headers of the image need not be parsed again: `HeaderSpan.find` and `ImageLayout.read` look at
the front of the image only, and there it shows what the file shows.

The proof compares the two directions byte by byte. Both move bytes by the same rule with the roles
of the two tables exchanged (`ImageLayout.moved?`), and sections that exclude each other make the
rule independent of the order in which the sections are looked through.

`Loadable` lists what a loader asks of a file in any case, and nothing about the parser: whatever
decides which headers are accepted, the statement is about the layout that it gave.
-/

namespace CilCapture.Image

open Memory

/-! ## What headers depend on -/

section

variable {W W' : Type} [AddressSpace W] [AddressSpace W'] {parser : HeaderParser}
variable {base base' : Address} {world : W} {world' : W'} {bound : Nat}

/-- Where the headers end is found from the front of an image alone. -/
theorem HeaderSpan.find_congr {span : HeaderSpan}
    (same : ∀ length ≤ bound, AddressSpace.read base' length world' =
      AddressSpace.read base length world)
    (found : HeaderSpan.find base world = .ok span) (start_le : startHeaderSize ≤ bound)
    (finish_le : span.finish ≤ bound) : HeaderSpan.find base' world' = .ok span := by
  unfold HeaderSpan.find at found ⊢
  obtain ⟨start, read_start, rest⟩ := bind_eq_ok.mp found
  rw [same _ start_le, read_start, bind_ok]
  dsimp only at rest ⊢
  split at rest
  next => cases rest
  next near =>
    obtain ⟨headers, read_headers, done⟩ := bind_eq_ok.mp rest
    have before : field 4 signaturePointer start + fileHeaderSize ≤ span.finish := by
      split at done
      next => cases done
      next =>
        cases done
        simp only [finish, sectionTable, optionalHeader]
        omega
    rw [if_neg near, same _ (Nat.le_trans before finish_le), read_headers, bind_ok, done]

/-- The layout is read from the front of an image alone, as far as its headers go. A file and the
image it is mapped to have the same front, and so the same layout. -/
theorem ImageLayout.read_congr {layout : ImageLayout} {span : HeaderSpan}
    (same : ∀ length ≤ bound, AddressSpace.read base' length world' =
      AddressSpace.read base length world)
    (found : HeaderSpan.find base world = .ok span)
    (start_le : startHeaderSize ≤ bound) (finish_le : span.finish ≤ bound)
    (parsed : ImageLayout.read parser base world = .ok layout) :
    ImageLayout.read parser base' world' = .ok layout := by
  unfold ImageLayout.read at parsed ⊢
  rw [found, bind_ok] at parsed
  obtain ⟨headers, read_headers, rest⟩ := bind_eq_ok.mp parsed
  rw [HeaderSpan.find_congr same found start_le finish_le, bind_ok, same _ finish_le, read_headers,
    bind_ok]
  dsimp only at rest ⊢
  split at rest
  next => cases rest
  next accepted =>
    split at rest
    next => cases rest
    next listed =>
      rw [if_neg accepted, if_neg listed, rest]

end

/-! ## Images in memory -/

section

variable {W : Type} [AddressSpace W] {base : Address} {world : W} {image : Bytes}

/-- The bytes stand in memory at an address, and every part of them can be read. -/
def Maps (base : Address) (image : Bytes) (world : W) : Prop :=
  ∀ start length, start + length ≤ image.length →
    AddressSpace.read (base + start) length world = .ok ((image.drop start).take length)

/-- The front of a mapped image is read as such. -/
theorem Maps.front (maps : Maps base image world) {length : Nat} (inside : length ≤ image.length) :
    AddressSpace.read base length world = .ok (image.take length) := by
  have read := maps 0 length (by rwa [Nat.zero_add])
  rwa [Nat.add_zero, List.drop_zero] at read

/-- What memory shows inside a mapped image is the byte of the image. -/
theorem Maps.getElem?_of_shows (maps : Maps base image world) {distance : Nat} {byte : UInt8}
    (inside : distance < image.length) (shows_byte : Shows world (base + distance) byte) :
    image[distance]? = some byte := by
  have shown := shows_byte.shown (maps distance 1 inside) (Nat.le_refl _) (Nat.lt_succ_self _)
  rwa [Nat.sub_self, List.getElem?_take_of_lt Nat.zero_lt_one, List.getElem?_drop,
    Nat.add_zero] at shown

/-- Memory that holds one buffer maps it. -/
theorem maps_region (base : Address) (image : Bytes) :
    Maps base image (⟨[⟨base, image⟩]⟩ : MappedMemory) := by
  intro start length inside
  have covered : Mapping.covers ⟨base, image⟩ (base + start) length = true := by
    refine Mapping.covers_iff.mpr ⟨Nat.le_add_right _ _, ?_⟩
    rw [Mapping.extent_snd, Nat.add_assoc]
    exact Nat.add_le_add_left inside _
  change MappedMemory.read (base + start) length _ = _
  rw [MappedMemory.read, List.find?_cons, covered]
  simp only [Mapping.slice, Nat.add_sub_cancel_left]

end

/-! ## Mapped files -/

/-- Strings start alike when their bytes do, one by one. -/
theorem take_congr {first second : Bytes} {length : Nat}
    (same : ∀ index < length, first[index]? = second[index]?) :
    first.take length = second.take length := by
  refine List.ext_getElem? fun index => ?_
  by_cases bound : index < length
  · rw [List.getElem?_take_of_lt bound, List.getElem?_take_of_lt bound, same index bound]
  · rw [List.getElem?_take_eq_none (Nat.not_lt.mp bound),
      List.getElem?_take_eq_none (Nat.not_lt.mp bound)]

namespace ImageLayout

/-- Where in the file the byte at a distance into the image comes from. -/
def source? (layout : ImageLayout) (distance : Nat) : Option Nat :=
  layout.moved? Section.virtualAddress Section.rawPointer layout.sections distance

/-- The image of `size` bytes that a loader maps a file to. -/
def mapFile (layout : ImageLayout) (size : Nat) (file : Bytes) : Bytes :=
  (List.range size).map fun distance =>
    ((layout.source? distance).bind fun offset => file[offset]?).getD 0

/-- An image has the size that it is mapped with. -/
@[simp] theorem length_mapFile (layout : ImageLayout) (size : Nat) (file : Bytes) :
    (layout.mapFile size file).length = size := by
  simp [mapFile]

/-- An image has the byte of the file that comes to stand there. -/
theorem getElem?_mapFile {layout : ImageLayout} {size : Nat} {file : Bytes} {distance offset : Nat}
    (inside : distance < size) (source : layout.source? distance = some offset)
    (bound : offset < file.length) :
    (layout.mapFile size file)[distance]? = file[offset]? := by
  rw [mapFile, List.getElem?_map, List.getElem?_range inside, Option.map_some, source,
    Option.bind_some, List.getElem?_eq_getElem bound, Option.getD_some]

end ImageLayout

/-- The memory that holds a file as it is. -/
def flat (file : Bytes) : MappedMemory := ⟨[⟨0, file⟩]⟩

/-- A file that lies flat in memory is mapped there. -/
theorem maps_flat (file : Bytes) : Maps 0 file (flat file) := maps_region 0 file

/-- Sections that exclude each other: no place lies in what is copied of two of them. -/
def Exclusive (start : Section → UInt32) (sections : List Section) : Prop :=
  sections.Pairwise fun first second =>
    ∀ place, ¬(first.spans start place = true ∧ second.spans start place = true)

/-- A file whose headers and sections have ranges of their own, in the file and in an image of
`size` bytes. -/
structure Loadable (parser : HeaderParser) (file : Bytes) (size : Nat) (layout : ImageLayout) :
    Prop where
  parsed : ImageLayout.read parser 0 (flat file) = .ok layout
  start_in_headers : startHeaderSize ≤ layout.sizeOfHeaders
  span_in_headers : ∀ {span : HeaderSpan}, HeaderSpan.find 0 (flat file) = .ok span →
    span.finish ≤ layout.sizeOfHeaders
  headers_in_file : layout.sizeOfHeaders ≤ file.length
  headers_in_image : layout.sizeOfHeaders ≤ size
  behind_headers_in_file : ∀ entry ∈ layout.sections, ∀ {offset : Nat},
    entry.spans Section.rawPointer offset = true → layout.sizeOfHeaders ≤ offset
  behind_headers_in_image : ∀ entry ∈ layout.sections, ∀ {distance : Nat},
    entry.spans Section.virtualAddress distance = true → layout.sizeOfHeaders ≤ distance
  sections_in_file : ∀ entry ∈ layout.sections, ∀ {offset : Nat},
    entry.spans Section.rawPointer offset = true → offset < file.length
  sections_in_image : ∀ entry ∈ layout.sections,
    entry.virtualAddress.toNat + entry.copyLength ≤ size
  exclusive_in_file : Exclusive Section.rawPointer layout.sections
  exclusive_in_image : Exclusive Section.virtualAddress layout.sections

/-! ### Where bytes go -/

section

variable {layout : ImageLayout} {source target : Section → UInt32} {sections listed : List Section}

/-- A section spans what is copied of it. -/
theorem Section.spans_add {entry : Section} {index : Nat} (start : Section → UInt32)
    (bound : index < entry.copyLength) :
    entry.spans start ((start entry).toNat + index) = true := by
  simpa [Section.spans] using bound

/-- The section found at a place is the one that spans it, whatever the order of the search. -/
theorem Exclusive.find?_eq (exclusive : Exclusive source sections)
    (same : ∀ entry, entry ∈ listed ↔ entry ∈ sections) {entry : Section}
    (mem : entry ∈ sections) {place : Nat} (here : entry.spans source place = true) :
    listed.find? (·.spans source place) = some entry := by
  have some_found : (listed.find? (·.spans source place)).isSome :=
    List.find?_isSome.mpr ⟨entry, (same entry).mpr mem, here⟩
  obtain ⟨found, found_eq⟩ := Option.isSome_iff_exists.mp some_found
  rw [found_eq]
  have found_mem := (same found).mp (List.mem_of_find?_eq_some found_eq)
  have found_here := List.find?_some found_eq
  have : Std.Symm fun first second : Section =>
      ∀ place, ¬(first.spans source place = true ∧ second.spans source place = true) :=
    ⟨fun _ _ exclude place both => exclude place both.symm⟩
  by_contra different
  exact exclusive.forall found_mem mem (fun same => different (congrArg some same)) place
    ⟨found_here, here⟩

/-- The headers stay where they are, as long as no section covers them. -/
theorem ImageLayout.moved?_headers {place : Nat} (inside : place < layout.sizeOfHeaders)
    (behind : ∀ entry ∈ listed, entry.spans source place = true →
      layout.sizeOfHeaders ≤ place) :
    layout.moved? source target listed place = some place := by
  have none_spans : listed.find? (·.spans source place) = none :=
    List.find?_eq_none.mpr fun entry mem spans =>
      Nat.not_lt.mpr (behind entry mem spans) inside
  rw [moved?, none_spans]
  exact if_pos inside

/-- A byte of a section moves with it. Since the sections exclude each other, it does not matter in
which order they are looked through. -/
theorem ImageLayout.moved?_section (exclusive : Exclusive source sections)
    (same : ∀ entry, entry ∈ listed ↔ entry ∈ sections) {entry : Section}
    (mem : entry ∈ sections) {index : Nat} (bound : index < entry.copyLength) :
    layout.moved? source target listed ((source entry).toNat + index) =
      some ((target entry).toNat + index) := by
  rw [moved?, exclusive.find?_eq same mem (Section.spans_add source bound)]
  dsimp only
  rw [Nat.add_sub_cancel_left]

end

namespace Loadable

variable {parser : HeaderParser} {file : Bytes} {size : Nat} {layout : ImageLayout}

/-! ### Mapped bytes -/

/-- In a loadable file the headers come from the headers. -/
theorem origin_headers (loadable : Loadable parser file size layout) {offset : Nat}
    (inside : offset < layout.sizeOfHeaders) : layout.origin? offset = some offset :=
  ImageLayout.moved?_headers inside fun entry mem =>
    loadable.behind_headers_in_file entry (List.mem_reverse.mp mem)

/-- In a loadable file a byte of a section comes from the image of that section. -/
theorem origin_section (loadable : Loadable parser file size layout) {entry : Section}
    (mem : entry ∈ layout.sections) {index : Nat} (bound : index < entry.copyLength) :
    layout.origin? (entry.rawPointer.toNat + index) = some (entry.virtualAddress.toNat + index) :=
  ImageLayout.moved?_section loadable.exclusive_in_file (fun _ => List.mem_reverse) mem bound

/-- The image starts as the file does. -/
theorem image_headers (loadable : Loadable parser file size layout) {distance : Nat}
    (inside : distance < layout.sizeOfHeaders) :
    (layout.mapFile size file)[distance]? = file[distance]? := by
  have in_image := loadable.headers_in_image
  have in_file := loadable.headers_in_file
  exact ImageLayout.getElem?_mapFile (by omega)
    (ImageLayout.moved?_headers inside fun entry mem =>
      loadable.behind_headers_in_image entry mem)
    (by omega)

/-- At the virtual address of a section the image has what the file has in the section. -/
theorem image_section (loadable : Loadable parser file size layout) {entry : Section}
    (mem : entry ∈ layout.sections) {index : Nat} (bound : index < entry.copyLength) :
    (layout.mapFile size file)[entry.virtualAddress.toNat + index]? =
      file[entry.rawPointer.toNat + index]? := by
  have in_image := loadable.sections_in_image entry mem
  exact ImageLayout.getElem?_mapFile (by omega)
    (ImageLayout.moved?_section loadable.exclusive_in_image (fun _ => Iff.rfl) mem bound)
    (loadable.sections_in_file entry mem (Section.spans_add Section.rawPointer bound))

/-! ### Snapshots -/

section

variable {W : Type} [AddressSpace W] {possible : W → Prop} {base : Address} {world : W}

/-- The layout of the mapped image is the layout of the file. -/
theorem read_image (loadable : Loadable parser file size layout)
    (maps : Maps base (layout.mapFile size file) world) :
    ImageLayout.read parser base world = .ok layout := by
  have same : ∀ length ≤ layout.sizeOfHeaders,
      AddressSpace.read base length world = AddressSpace.read 0 length (flat file) := by
    intro length inside
    have in_image := loadable.headers_in_image
    have in_file := loadable.headers_in_file
    rw [maps.front (by rw [ImageLayout.length_mapFile]; omega), (maps_flat file).front (by omega)]
    exact congrArg _ (take_congr fun index bound => loadable.image_headers (by omega))
  obtain ⟨span, found, -⟩ := bind_eq_ok.mp loadable.parsed
  exact ImageLayout.read_congr same found loadable.start_in_headers
    (loadable.span_in_headers found) loadable.parsed

/-- All that a snapshot copies of a mapped file can be read. -/
theorem exists_reconstruct (loadable : Loadable parser file size layout)
    (low : base < 0x4000000000000000) (maps : Maps base (layout.mapFile size file) world) :
    ∃ rebuilt, reconstruct parser base world = .ok rebuilt := by
  refine (reconstruct_isOk_iff low).mpr ⟨layout, loadable.read_image maps, ?_, ?_⟩
  · refine ⟨_, maps.front ?_⟩
    rw [ImageLayout.length_mapFile]
    exact loadable.headers_in_image
  · intro entry mem
    refine ⟨_, maps _ _ ?_⟩
    rw [ImageLayout.length_mapFile]
    exact loadable.sections_in_image entry mem

/-- A byte of the snapshot is the byte of the file that was mapped to its origin. -/
theorem getElem?_snapshot {rebuilt : Bytes} (pictures : Pictures base world layout rebuilt)
    (maps : Maps base (layout.mapFile size file) world) {offset distance : Nat}
    (bound : offset < rebuilt.length) (origin : layout.origin? offset = some distance)
    (inside : distance < size)
    (same : (layout.mapFile size file)[distance]? = file[offset]?) :
    rebuilt[offset]? = file[offset]? := by
  have shows_byte := pictures.byte_origin (List.getElem?_eq_getElem bound)
  rw [origin] at shows_byte
  have there := maps.getElem?_of_shows (by rwa [ImageLayout.length_mapFile]) shows_byte
  rw [List.getElem?_eq_getElem bound, ← there, same]

end

end Loadable

/-- A file that has the headers of another one, and of its sections what is copied of them. -/
structure GivesBack (layout : ImageLayout) (file rebuilt : Bytes) : Prop where
  headers : rebuilt.take layout.sizeOfHeaders = file.take layout.sizeOfHeaders
  sections : ∀ entry ∈ layout.sections,
    (rebuilt.drop entry.rawPointer.toNat).take entry.copyLength =
      (file.drop entry.rawPointer.toNat).take entry.copyLength

section

variable {W : Type} [AddressSpace W] {possible : W → Prop} {base : Address} {world : W}

/-- A snapshot of a mapped file gives the file's headers and sections back. -/
theorem Loadable.givesBack {parser : HeaderParser} {file : Bytes} {size : Nat}
    {layout : ImageLayout} (loadable : Loadable parser file size layout)
    (maps : Maps base (layout.mapFile size file) world) {rebuilt : Bytes}
    (pictures : Pictures base world layout rebuilt) : GivesBack layout file rebuilt := by
  constructor
  · have headers_le := pictures.length_max _ List.mem_cons_self
    have in_image := loadable.headers_in_image
    refine take_congr fun index bound => ?_
    exact Loadable.getElem?_snapshot pictures maps (by omega) (loadable.origin_headers bound)
      (by omega) (loadable.image_headers bound)
  · intro entry mem
    have in_image := loadable.sections_in_image entry mem
    have copied := entry.copyLength_le
    have raw_le := pictures.length_max _ (List.mem_cons_of_mem _ (List.mem_map_of_mem mem))
    refine take_congr fun index bound => ?_
    rw [List.getElem?_drop, List.getElem?_drop]
    exact Loadable.getElem?_snapshot pictures maps (by omega) (loadable.origin_section mem bound)
      (by omega) (loadable.image_section mem bound)

/-- What a snapshot is: it succeeds when the headers parse and all that is copied can be read, no
copy ends outside the file, and every byte of the file is the one at its origin. Of a mapped file it
has the headers and what was mapped of each section. -/
theorem snapshot_faithful (memory : ReadableMemory possible) (here : possible world)
    (low : base < 0x4000000000000000) (parser : HeaderParser) :
    ((∃ file, reconstruct parser base world = .ok file) ↔
      ∃ layout, ImageLayout.read parser base world = .ok layout ∧
        Readable world base layout.sizeOfHeaders ∧
        ∀ entry ∈ layout.sections,
          Readable world (base + entry.virtualAddress.toNat) entry.copyLength) ∧
    (∀ layout : ImageLayout, layout.sizeOfHeaders ≤ layout.fileSize ∧
      ∀ entry ∈ layout.sections,
        entry.rawPointer.toNat + entry.copyLength ≤ layout.fileSize) ∧
    (∀ file, reconstruct parser base world = .ok file →
      ∃ layout, ImageLayout.read parser base world = .ok layout ∧
        Pictures base world layout file) ∧
    ∀ file size layout, Loadable parser file size layout →
      Maps base (layout.mapFile size file) world →
        ∃ rebuilt, reconstruct parser base world = .ok rebuilt ∧
          GivesBack layout file rebuilt := by
  refine ⟨reconstruct_isOk_iff low, ?_, ?_, ?_⟩
  · exact fun layout => ⟨layout.headers_le_fileSize, fun entry mem => layout.copy_le_fileSize mem⟩
  · exact fun file done => pictures_of_reconstruct memory here low done
  · intro file size layout loadable maps
    obtain ⟨rebuilt, done⟩ := loadable.exists_reconstruct low maps
    obtain ⟨layout', parsed, pictures⟩ := pictures_of_reconstruct memory here low done
    cases parsed.symm.trans (loadable.read_image maps)
    exact ⟨rebuilt, done, loadable.givesBack maps pictures⟩

end

/-! ### A small file -/

/-- A file of two sections; of the first one four of its eight bytes are mapped. -/
def smallFile : Bytes :=
  [0x4D, 0x5A] ++ Bytes.zeros 58 ++ [0x40, 0, 0, 0] ++
  [0x50, 0x45, 0, 0, 0, 0, 2, 0] ++ Bytes.zeros 12 ++ [0x60, 0, 0, 0] ++
  [0x0B, 1] ++ Bytes.zeros 58 ++ [0x08, 1, 0, 0] ++ Bytes.zeros 32 ++
  [0x2E, 0x61, 0, 0, 0, 0, 0, 0, 4, 0, 0, 0, 0x10, 1, 0, 0, 8, 0, 0, 0, 0x08, 1, 0, 0] ++
  Bytes.zeros 16 ++
  [0x2E, 0x62, 0, 0, 0, 0, 0, 0, 0, 0, 0, 0, 0x18, 1, 0, 0, 4, 0, 0, 0, 0x10, 1, 0, 0] ++
  Bytes.zeros 16 ++
  [1, 2, 3, 4, 0, 0, 0, 0, 5, 6, 7, 8]

def smallLayout : ImageLayout where
  sizeOfHeaders := 0x108
  sections := [
    { name := [0x2E, 0x61, 0, 0, 0, 0, 0, 0], virtualSize := 4, virtualAddress := 0x110,
      rawSize := 8, rawPointer := 0x108 },
    { name := [0x2E, 0x62, 0, 0, 0, 0, 0, 0], virtualSize := 0, virtualAddress := 0x118,
      rawSize := 4, rawPointer := 0x110 }]

/-- The headers of the small file end in front of its sections, which lie apart in file and image.
-/
theorem loadable_small : Loadable .standard smallFile 0x11C smallLayout where
  parsed := by decide +kernel
  start_in_headers := by decide
  span_in_headers := by
    intro span found
    have finds : HeaderSpan.find 0 (flat smallFile) = .ok ⟨0x40, 2, 0x60⟩ := by decide +kernel
    cases found.symm.trans finds
    decide
  headers_in_file := by decide +kernel
  headers_in_image := by decide
  behind_headers_in_file := by
    intro entry mem offset spans
    simp only [smallLayout, List.mem_cons, List.not_mem_nil, or_false] at mem ⊢
    rcases mem with rfl | rfl <;> simp [Section.spans, Section.copyLength] at spans <;> omega
  behind_headers_in_image := by
    intro entry mem distance spans
    simp only [smallLayout, List.mem_cons, List.not_mem_nil, or_false] at mem ⊢
    rcases mem with rfl | rfl <;> simp [Section.spans, Section.copyLength] at spans <;> omega
  sections_in_file := by
    intro entry mem offset spans
    have length_eq : smallFile.length = 0x114 := by decide +kernel
    rw [length_eq]
    simp only [smallLayout, List.mem_cons, List.not_mem_nil, or_false] at mem
    rcases mem with rfl | rfl <;> simp [Section.spans, Section.copyLength] at spans <;> omega
  sections_in_image := by decide
  exclusive_in_file := by
    simp [Exclusive, smallLayout, Section.spans, Section.copyLength]
    omega
  exclusive_in_image := by
    simp [Exclusive, smallLayout, Section.spans, Section.copyLength]
    omega

/-- The small file is mapped and rebuilt; of its first section only the mapped half comes back. -/
theorem snapshot_faithful_small :
    (0x400000 : Nat) < 0x4000000000000000 ∧
      ∃ rebuilt, reconstruct .standard 0x400000
          (⟨[⟨0x400000, smallLayout.mapFile 0x11C smallFile⟩]⟩ : MappedMemory) = .ok rebuilt ∧
        GivesBack smallLayout smallFile rebuilt := by
  have low : (0x400000 : Nat) < 0x4000000000000000 := by decide
  have faithful := snapshot_faithful mapped_steady.toReadableMemory
    (List.pairwise_singleton Mapping.Apart ⟨0x400000, smallLayout.mapFile 0x11C smallFile⟩) low
    .standard
  exact ⟨low, faithful.2.2.2 smallFile 0x11C smallLayout loadable_small (maps_region _ _)⟩

end CilCapture.Image
