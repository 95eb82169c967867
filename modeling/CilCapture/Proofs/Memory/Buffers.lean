import Mathlib.Data.List.Pairwise
import CilCapture.Proofs.Bytes
import CilCapture.Proofs.Memory.Contents
import CilCapture.Rehearsal.World

/-!
# Memories of buffers

Buffers that lie apart are a memory of bytes, and one with fixed writable ranges (`mapped_steady`).
With ranges that refuse writes they still are a memory of bytes that grows by new regions
(`guarded_growing`), and one with fixed writable ranges unless a write seals a range
(`guarded_steady`). The memory of a rehearsal is made of such buffers.

The proofs are by regions: a range that can be read lies in one region, and regions apart have no
address in common, so a write that goes to one changes no other. The laws of `Contents` follow, and
nothing later looks at regions again.

Protected ranges come in two kinds. Those that are read-only refuse every write, and the set of them
is fixed unless some range is to be sealed by its first write; that is why `guarded_steady` asks for
none of the second kind.
-/

namespace CilCapture

/-- Inside the data laid over it a string has that data, and elsewhere what it had. -/
theorem Bytes.getElem?_overlay {base data : Bytes} {start : Nat}
    (fits : start + data.length ≤ base.length) (index : Nat) :
    (base.overlay start data)[index]? =
      if start ≤ index ∧ index < start + data.length then data[index - start]?
      else base[index]? := by
  have head : (base.take start).length = start := by
    rw [List.length_take]
    omega
  rw [Bytes.overlay]
  by_cases before : index < start
  · rw [if_neg (by omega), List.append_assoc, List.getElem?_append_left (by omega),
      List.getElem?_take_of_lt before]
  · by_cases inside : index < start + data.length
    · rw [if_pos ⟨by omega, inside⟩,
        List.getElem?_append_left (by simp only [List.length_append]; omega),
        List.getElem?_append_right (by omega), head]
    · have far : (base.take start ++ data).length ≤ index := by
        rw [List.length_append]
        omega
      rw [if_neg (by omega), List.getElem?_append_right far, List.getElem?_drop]
      congr 1
      rw [List.length_append]
      omega

/-- Laying bytes over others where they fit leaves the length. -/
theorem Bytes.length_overlay {base data : Bytes} {start : Nat}
    (fits : start + data.length ≤ base.length) :
    (base.overlay start data).length = base.length := by
  simp only [Bytes.overlay, List.length_append, List.length_take, List.length_drop]
  omega

namespace Memory

/-! ## One region -/

namespace Mapping

/-- Where a region starts, and where it ends. -/
def extent (region : Mapping) : Nat × Nat := (region.base, region.base + region.bytes.length)

/-- A region covers a range that lies inside its extent. -/
theorem covers_iff {region : Mapping} {address length : Nat} :
    region.covers address length = true ↔
      region.extent.1 ≤ address ∧ address + length ≤ region.extent.2 := by
  simp only [covers, Bool.and_eq_true, decide_eq_true_eq]
  exact Iff.rfl

/-- A region overlaps a range that begins before its end and ends behind its beginning. -/
theorem overlaps_iff {region : Mapping} {address length : Nat} :
    region.overlaps address length = true ↔
      address < region.extent.2 ∧ region.extent.1 < address + length := by
  simp only [overlaps, Bool.and_eq_true, decide_eq_true_eq]
  exact Iff.rfl

theorem extent_snd (region : Mapping) : region.extent.2 = region.extent.1 + region.bytes.length :=
  rfl

/-- Regions of which one ends before the other one starts. -/
def Apart (first second : Mapping) : Prop :=
  first.extent.2 ≤ second.extent.1 ∨ second.extent.2 ≤ first.extent.1

theorem Apart.symm {first second : Mapping} (apart : first.Apart second) : second.Apart first :=
  Or.symm apart

/-- Storing into a region leaves it where it is. -/
theorem extent_store {region : Mapping} {address : Nat} {data : Bytes}
    (inside : region.covers address data.length = true) :
    (region.store address data).extent = region.extent := by
  obtain ⟨above, below⟩ := covers_iff.mp inside
  rw [extent_snd] at below
  have fits : address - region.extent.1 + data.length ≤ region.bytes.length := by omega
  exact Prod.ext rfl (congrArg (region.extent.1 + ·) (Bytes.length_overlay fits))

/-- A slice of what a region covers is as long as it was asked for. -/
theorem length_slice {region : Mapping} {address length : Nat}
    (inside : region.covers address length = true) :
    (region.slice address length).length = length := by
  obtain ⟨above, below⟩ := covers_iff.mp inside
  rw [extent_snd] at below
  rw [slice, List.length_take, List.length_drop]
  change min length (region.bytes.length - (address - region.extent.1)) = length
  omega

/-- The bytes of a slice are those of the region from there on. -/
theorem getElem?_slice {region : Mapping} {address length index : Nat} (bound : index < length) :
    (region.slice address length)[index]? = region.bytes[address - region.extent.1 + index]? := by
  rw [slice, List.getElem?_take_of_lt bound, List.getElem?_drop]
  rfl

/-- An index of one range is the index of another one that meets it. -/
theorem offset_eq {region : Mapping} {start start' length length' index index' : Nat}
    (inside : region.covers start length = true) (inside' : region.covers start' length' = true)
    (same : start + index = start' + index') :
    start - region.extent.1 + index = start' - region.extent.1 + index' := by
  obtain ⟨above, -⟩ := covers_iff.mp inside
  obtain ⟨above', -⟩ := covers_iff.mp inside'
  omega

/-- Ranges that meet lie in the same region. -/
theorem eq_of_meet {regions : List Mapping} (apart : regions.Pairwise Apart)
    {region region' : Mapping} (mem : region ∈ regions) (mem' : region' ∈ regions)
    {start start' length length' index index' : Nat}
    (inside : region.covers start length = true) (inside' : region'.covers start' length' = true)
    (same : start + index = start' + index') (bound : index < length) (bound' : index' < length') :
    region = region' := by
  obtain ⟨above, below⟩ := covers_iff.mp inside
  obtain ⟨above', below'⟩ := covers_iff.mp inside'
  have : Std.Symm Apart := ⟨fun _ _ => Apart.symm⟩
  by_contra different
  rcases apart.forall mem mem' different with before | before <;> omega

/-- A range of a region after a store in it. -/
theorem slice_store {region : Mapping} {store : Store} {start length : Nat}
    (wrote : region.covers store.address store.data.length = true)
    (inside : region.covers start length = true) :
    (region.store store.address store.data).slice start length =
      bytesAfter [store] start (region.slice start length) := by
  have inside' : (region.store store.address store.data).covers start length = true := by
    rw [covers_iff, extent_store wrote]
    exact covers_iff.mp inside
  obtain ⟨above, below⟩ := covers_iff.mp wrote
  obtain ⟨above', below'⟩ := covers_iff.mp inside
  rw [extent_snd] at below below'
  have fits : store.address - region.extent.1 + store.data.length ≤ region.bytes.length := by omega
  apply List.ext_getElem?
  intro index
  by_cases bound : index < length
  · rw [getElem?_bytesAfter, getElem?_slice bound, getElem?_slice bound, extent_store wrote]
    change (region.bytes.overlay (store.address - region.extent.1) store.data)[_]? = _
    rw [Bytes.getElem?_overlay fits]
    have present : start - region.extent.1 + index < region.bytes.length := by omega
    rw [List.getElem?_eq_getElem present, Option.map_some]
    change _ = some (store.byteAt (start + index) _)
    by_cases covers : store.covers (start + index)
    · obtain ⟨from_, upto⟩ := covers
      rw [if_pos ⟨by omega, by omega⟩, ← Store.byteAt_of_covers ⟨from_, upto⟩]
      congr 1
      omega
    · rw [Store.byteAt_of_not_covers covers, if_neg]
      unfold Store.covers at covers
      omega
  · rw [List.getElem?_eq_none (by rw [length_slice inside']; omega),
      List.getElem?_eq_none (by rw [length_bytesAfter, length_slice inside]; omega)]

/-- A range of a region after a store in another one. -/
theorem bytesAfter_slice_of_apart {region other : Mapping} (apart : region.Apart other)
    {store : Store} {start length : Nat}
    (wrote : other.covers store.address store.data.length = true)
    (inside : region.covers start length = true) :
    bytesAfter [store] start (region.slice start length) = region.slice start length := by
  obtain ⟨above, below⟩ := covers_iff.mp wrote
  obtain ⟨above', below'⟩ := covers_iff.mp inside
  apply bytesAfter_of_not_covered
  intro written mem index bound
  cases List.mem_singleton.mp mem
  rw [length_slice inside] at bound
  rintro ⟨from_, upto⟩
  rcases apart with apart | apart <;> omega

end Mapping

/-! ## Regions that lie apart -/

namespace MappedMemory

/-- Buffers of which no two overlap. -/
def Apart (memory : MappedMemory) : Prop := memory.regions.Pairwise Mapping.Apart

/-- A write leaves every region where it is. -/
theorem extents_of_storeFirst {address : Address} {data : Bytes} {regions stored : List Mapping}
    (done : storeFirst address data regions = some stored) :
    stored.map Mapping.extent = regions.map Mapping.extent := by
  induction regions generalizing stored with
  | nil => cases done
  | cons region regions ih =>
    rw [storeFirst] at done
    split at done
    next inside =>
      cases done
      rw [List.map_cons, List.map_cons, Mapping.extent_store inside]
    next =>
      obtain ⟨rest, stored_rest, rfl⟩ := Option.map_eq_some_iff.mp done
      rw [List.map_cons, List.map_cons, ih stored_rest]

/-- A store succeeds when a region has room for it. -/
theorem isSome_storeFirst (address : Address) (data : Bytes) (regions : List Mapping) :
    (storeFirst address data regions).isSome = regions.any (·.covers address data.length) := by
  induction regions with
  | nil => rfl
  | cons region regions ih =>
    rw [storeFirst, List.any_cons]
    cases region.covers address data.length with
    | true => rfl
    | false =>
      rw [if_neg Bool.false_ne_true, Option.isSome_map, ih, Bool.false_or]

/-- Whether a region covers a range depends on the extents of the regions. -/
theorem any_covers_congr {first second : List Mapping}
    (same : first.map Mapping.extent = second.map Mapping.extent) (address : Address)
    (length : Nat) :
    first.any (·.covers address length) = second.any (·.covers address length) := by
  have by_extent (regions : List Mapping) : regions.any (·.covers address length) =
      (regions.map Mapping.extent).any fun extent =>
        decide (extent.1 ≤ address) && decide (address + length ≤ extent.2) := by
    rw [List.any_map]
    rfl
  rw [by_extent, by_extent, same]

/-- A write goes into a region that covers all of it. -/
theorem exists_of_storeFirst {address : Address} {data : Bytes} {regions stored : List Mapping}
    (done : storeFirst address data regions = some stored) :
    ∃ region ∈ regions, region.covers address data.length = true := by
  apply List.any_eq_true.mp
  rw [← isSome_storeFirst, done]
  rfl

/-- What a range holds after a store. -/
theorem slice_storeFirst {store : Store} {regions stored : List Mapping}
    (apart : regions.Pairwise Mapping.Apart)
    (done : storeFirst store.address store.data regions = some stored) (start length : Nat) :
    (stored.find? (·.covers start length)).map (·.slice start length) =
      (regions.find? (·.covers start length)).map fun region =>
        bytesAfter [store] start (region.slice start length) := by
  induction regions generalizing stored with
  | nil => cases done
  | cons region regions ih =>
    obtain ⟨apart_first, apart_rest⟩ := List.pairwise_cons.mp apart
    rw [storeFirst] at done
    split at done
    next wrote =>
      cases done
      have same : (region.store store.address store.data).covers start length =
          region.covers start length := by
        rw [Bool.eq_iff_iff, Mapping.covers_iff, Mapping.covers_iff, Mapping.extent_store wrote]
      rw [List.find?_cons, List.find?_cons, same]
      -- the region written to answers the read itself, or one that lies apart from it does
      cases inside : region.covers start length with
      | true => exact congrArg some (Mapping.slice_store wrote inside)
      | false =>
        dsimp only
        cases found : regions.find? (·.covers start length) with
        | none => rfl
        | some other =>
          have other_inside := List.find?_some found
          have other_apart := apart_first other (List.mem_of_find?_eq_some found)
          exact congrArg some
            (Mapping.bytesAfter_slice_of_apart other_apart.symm wrote other_inside).symm
    next =>
      obtain ⟨rest, stored_rest, rfl⟩ := Option.map_eq_some_iff.mp done
      rw [List.find?_cons, List.find?_cons]
      cases inside : region.covers start length with
      -- the read stops at this region, while the write went on to a later one
      | true =>
        obtain ⟨other, mem, wrote⟩ := exists_of_storeFirst stored_rest
        exact congrArg some
          (Mapping.bytesAfter_slice_of_apart (apart_first other mem) wrote inside).symm
      | false => exact ih apart_rest stored_rest

/-- What is read is a slice of one region that covers the range. -/
theorem read_eq_ok {memory : MappedMemory} {address : Address} {length : Nat} {bytes : Bytes}
    (read : memory.read address length = .ok bytes) :
    ∃ region ∈ memory.regions, region.covers address length = true ∧
      bytes = region.slice address length := by
  unfold MappedMemory.read at read
  split at read
  next region found =>
    cases read
    have inside : region.covers address length = true :=
      List.find?_some (p := fun region : Mapping => region.covers address length) found
    exact ⟨region, List.mem_of_find?_eq_some found, inside, rfl⟩
  next => cases read

/-- The fault for a range that is not mapped depends on where regions are, not on their bytes. -/
theorem missing_congr {first second : MappedMemory}
    (same : first.regions.map Mapping.extent = second.regions.map Mapping.extent)
    (address : Address) (length : Nat) :
    first.missing address length = second.missing address length := by
  have by_extent (memory : MappedMemory) : memory.regions.any (·.base ≤ address) =
      (memory.regions.map Mapping.extent).any fun extent => decide (extent.1 ≤ address) := by
    rw [List.any_map]
    rfl
  rw [missing, missing, by_extent, by_extent, same]

/-- A write stores all of its bytes or changes nothing. -/
theorem write_cases (address : Address) (data : Bytes) (memory : MappedMemory) :
    (∃ stored, storeFirst address data memory.regions = some stored ∧
        MappedMemory.write address data memory = .ok () ⟨stored⟩) ∨
      storeFirst address data memory.regions = none ∧
        ∃ fault, MappedMemory.write address data memory = .error fault memory := by
  unfold MappedMemory.write
  cases done : storeFirst address data memory.regions with
  | some stored => exact .inl ⟨stored, rfl, rfl⟩
  | none => exact .inr ⟨rfl, _, rfl⟩

/-- No write moves a region. -/
theorem extents_write (address : Address) (data : Bytes) (memory : MappedMemory) :
    (finalState (MappedMemory.write address data memory)).regions.map Mapping.extent =
      memory.regions.map Mapping.extent := by
  rcases write_cases address data memory with ⟨stored, done, wrote⟩ | ⟨-, fault, failed⟩
  · rw [wrote]
    exact extents_of_storeFirst done
  · rw [failed]
    rfl

/-- Whether regions lie apart depends on their extents only. -/
theorem apart_of_extents {first second : MappedMemory}
    (same : first.regions.map Mapping.extent = second.regions.map Mapping.extent)
    (apart : second.Apart) : first.Apart := by
  have by_extent (memory : MappedMemory) : memory.Apart ↔
      (memory.regions.map Mapping.extent).Pairwise fun first second =>
        first.2 ≤ second.1 ∨ second.2 ≤ first.1 := by
    rw [List.pairwise_map]
    exact Iff.rfl
  rw [by_extent] at apart ⊢
  rwa [same]

/-- A write succeeds just when one region covers all of it. -/
theorem write_eq_ok_iff {address : Address} {data : Bytes} {memory : MappedMemory} :
    (∃ after, MappedMemory.write address data memory = .ok () after) ↔
      memory.regions.any (·.covers address data.length) = true := by
  rw [← isSome_storeFirst]
  rcases write_cases address data memory with ⟨stored, done, wrote⟩ | ⟨none, fault, failed⟩
  · rw [done, wrote]
    exact iff_of_true ⟨_, rfl⟩ rfl
  · rw [none, failed]
    exact iff_of_false nofun Bool.false_ne_true

/-- A range can be written when a region covers it. -/
theorem canWrite_iff {memory : MappedMemory} {address : Address} {length : Nat} :
    CanWrite memory address length ↔ memory.regions.any (·.covers address length) = true := by
  constructor
  · intro able
    have zeros := write_eq_ok_iff.mp (able (Bytes.zeros length) (Bytes.length_zeros length))
    rwa [Bytes.length_zeros] at zeros
  · intro covered data same
    apply write_eq_ok_iff.mpr
    rwa [same]

end MappedMemory

/-- Buffers that lie apart are a memory whose writable ranges are fixed. -/
theorem mapped_steady : SteadyMemory MappedMemory.Apart where
  possible_write := by
    intro memory apart address data
    exact MappedMemory.apart_of_extents (MappedMemory.extents_write address data memory) apart
  length_read := by
    intro memory apart address length bytes read
    obtain ⟨region, -, inside, rfl⟩ := MappedMemory.read_eq_ok read
    exact Mapping.length_slice inside
  -- two reads that meet in one address come from one region, since the regions lie apart
  read_agree := by
    intro memory apart address address' length length' bytes bytes' read read' index index' same
      bound bound'
    obtain ⟨region, mem, inside, rfl⟩ := MappedMemory.read_eq_ok read
    obtain ⟨region', mem', inside', rfl⟩ := MappedMemory.read_eq_ok read'
    cases Mapping.eq_of_meet apart mem mem' inside inside' same bound bound'
    rw [Mapping.getElem?_slice bound, Mapping.getElem?_slice bound']
    exact congrArg _ (Mapping.offset_eq inside inside' same)
  read_write := by
    intro memory after apart address data wrote start length
    rcases MappedMemory.write_cases address data memory with
      ⟨stored, done, wrote'⟩ | ⟨-, fault, failed⟩
    · cases wrote.symm.trans wrote'
      have slices := @MappedMemory.slice_storeFirst ⟨address, data⟩ _ _ apart done start length
      have same_fault := @MappedMemory.missing_congr ⟨stored⟩ memory
        (MappedMemory.extents_of_storeFirst done) start length
      -- the region that answers is the same before and after the write, as extents stay; only its
      -- slice may have changed
      change MappedMemory.read start length ⟨stored⟩ = (MappedMemory.read start length memory).map _
      unfold MappedMemory.read
      dsimp only
      cases found : memory.regions.find? (·.covers start length) with
      | none =>
        rw [found, Option.map_none, Option.map_eq_none_iff] at slices
        rw [slices, same_fault]
        rfl
      | some region =>
        rw [found, Option.map_some, Option.map_eq_some_iff] at slices
        obtain ⟨region', found', slice_eq⟩ := slices
        rw [found']
        exact congrArg Except.ok slice_eq
    · cases wrote.symm.trans failed
  read_failed := by
    intro memory after apart address data fault failed start length
    rcases MappedMemory.write_cases address data memory with
      ⟨stored, -, wrote⟩ | ⟨-, fault', failed'⟩
    · cases failed.symm.trans wrote
    · cases failed.symm.trans failed'
      rfl
  canWrite_of_write := by
    intro memory after apart address data wrote
    exact MappedMemory.canWrite_iff.mpr (MappedMemory.write_eq_ok_iff.mp ⟨after, wrote⟩)
  canWrite_write := by
    intro memory apart address data start length
    rw [MappedMemory.canWrite_iff, MappedMemory.canWrite_iff]
    have same := MappedMemory.any_covers_congr (MappedMemory.extents_write address data memory)
      start length
    exact Iff.of_eq (congrArg (· = true) same)

namespace MappedMemory

/-- With a further region everything reads as before, for the first region that covers a range is
the one that is read. -/
theorem extends_append (memory : MappedMemory) (added : Mapping) :
    Extends memory ⟨memory.regions ++ [added]⟩ := by
  constructor
  intro address length bytes read
  change MappedMemory.read address length memory = .ok bytes at read
  change MappedMemory.read address length ⟨memory.regions ++ [added]⟩ = .ok bytes
  unfold MappedMemory.read at read ⊢
  rw [List.find?_append]
  cases found : memory.regions.find? (·.covers address length) with
  | none =>
    rw [found] at read
    cases read
  | some region =>
    rw [found] at read
    exact read

/-- New memory is one more region, apart from the others. -/
theorem allocateFirst_eq_ok {candidates : List Address} {near base : Address} {size : Nat}
    {memory grown : MappedMemory}
    (allocated : allocateFirst candidates near size memory = .ok base grown) :
    grown = ⟨memory.regions ++ [⟨base, Bytes.zeros size⟩]⟩ ∧ (base + size : Nat) < Address.limit ∧
      ∀ region ∈ memory.regions, region.Apart ⟨base, Bytes.zeros size⟩ := by
  unfold allocateFirst at allocated
  split at allocated
  next found_base found =>
    split at allocated
    next => cases allocated
    next short =>
      cases allocated
      refine ⟨rfl, Nat.lt_of_not_le short, ?_⟩
      intro region mem
      have free := List.find?_some found
      rw [Bool.or_eq_true, decide_eq_true_eq] at free
      replace free := free.resolve_left short
      rw [Bool.not_eq_true', List.any_eq_false] at free
      have no_overlap := free region mem
      rw [Mapping.overlaps_iff] at no_overlap
      have ends : Mapping.extent ⟨base, Bytes.zeros size⟩ = (base, base + size) := by
        rw [Mapping.extent, Bytes.length_zeros]
      unfold Mapping.Apart
      rw [ends]
      by_cases before : region.extent.2 ≤ base
      · exact .inl before
      · exact .inr (Nat.le_of_not_lt fun starts => no_overlap ⟨Nat.lt_of_not_le before, starts⟩)
  next => cases allocated

/-- A region apart from the others may be added to them. -/
theorem apart_append {memory : MappedMemory} (apart : memory.Apart) {added : Mapping}
    (added_apart : ∀ region ∈ memory.regions, region.Apart added) :
    MappedMemory.Apart ⟨memory.regions ++ [added]⟩ := by
  refine List.pairwise_append.mpr ⟨apart, List.pairwise_singleton _ _, ?_⟩
  intro region mem other other_mem
  cases List.mem_singleton.mp other_mem
  exact added_apart region mem

/-- A range that can be read lies outside of a region apart from all others. -/
theorem outside_of_apart {memory : MappedMemory} {base size : Nat}
    (apart : ∀ region ∈ memory.regions, region.Apart ⟨base, Bytes.zeros size⟩)
    {address length : Nat} {bytes : Bytes} (read : memory.read address length = .ok bytes)
    {index : Nat} (bound : index < length) :
    ¬ (base ≤ address + index ∧ address + index < base + size) := by
  obtain ⟨region, mem, inside, -⟩ := read_eq_ok read
  obtain ⟨above, below⟩ := Mapping.covers_iff.mp inside
  have ends : Mapping.extent ⟨base, Bytes.zeros size⟩ = (base, base + size) := by
    rw [Mapping.extent, Bytes.length_zeros]
  have region_apart := apart region mem
  unfold Mapping.Apart at region_apart
  rw [ends] at region_apart
  rintro ⟨from_, upto⟩
  rcases region_apart with before | before
  · change region.extent.2 ≤ base at before
    omega
  · change base + size ≤ region.extent.1 at before
    omega

end MappedMemory

/-! ## Ranges that refuse writes -/

namespace GuardedMemory

/-- Buffers that lie apart and end, like the ranges that the first write seals, inside the address
space. -/
structure Sound (memory : GuardedMemory) : Prop where
  apart : memory.buffers.Apart
  regions_end : ∀ extent ∈ memory.buffers.regions.map Mapping.extent, extent.2 < Address.limit
  ranges_end : ∀ range ∈ memory.writeOnce, range.start + range.length < Address.limit

/-- Whether a range is mapped and no other one refuses to have it written. -/
def Accepts (memory : GuardedMemory) (address : Address) (length : Nat) : Prop :=
  memory.readOnly.findSome? (·.refusal? address length) = none ∧
    memory.buffers.regions.any (·.covers address length) = true

/-- A range inside a region seals what it touches without an overrun. -/
theorem not_overruns {memory : GuardedMemory} (sound : memory.Sound) {address : Address}
    {length : Nat} (covered : memory.buffers.regions.any (·.covers address length) = true) :
    memory.writeOnce.any (·.overruns address length) = false := by
  obtain ⟨region, mem, inside⟩ := List.any_eq_true.mp covered
  obtain ⟨-, below⟩ := Mapping.covers_iff.mp inside
  have region_end := sound.regions_end _ (List.mem_map_of_mem mem)
  have short : ¬ Address.limit ≤ address + length :=
    Nat.not_le.mpr (Nat.lt_of_le_of_lt below region_end)
  rw [List.any_eq_false]
  intro range range_mem
  have range_short := Nat.not_le.mpr (sound.ranges_end range range_mem)
  simp only [AddressRange.overruns, decide_eq_false short, decide_eq_false range_short,
    Bool.and_false, Bool.or_false]
  exact Bool.false_ne_true

/-- A write is refused and changes nothing, or it is a write to the buffers that may seal ranges. -/
theorem write_cases {memory : GuardedMemory} (sound : memory.Sound) (address : Address)
    (data : Bytes) :
    (¬ memory.Accepts address data.length ∧
        ∃ fault, write address data memory = .error fault memory) ∨
      memory.Accepts address data.length ∧
        ∃ buffers, MappedMemory.write address data memory.buffers = .ok () buffers ∧
          write address data memory = .ok ()
            { memory with
              buffers
              readOnly := memory.readOnly ++
                memory.writeOnce.filter (·.touches address data.length) } := by
  unfold write Accepts
  cases refused : memory.readOnly.findSome? (·.refusal? address data.length) with
  | some fault => exact .inl ⟨fun accepted => (nomatch accepted.1), fault, rfl⟩
  | none =>
    unfold onBuffers
    rw [← MappedMemory.isSome_storeFirst]
    rcases MappedMemory.write_cases address data memory.buffers with
      ⟨stored, done, wrote⟩ | ⟨none, fault, failed⟩
    · have covered : memory.buffers.regions.any (·.covers address data.length) = true := by
        rw [← MappedMemory.isSome_storeFirst, done]
        rfl
      rw [wrote, done]
      dsimp only
      rw [not_overruns sound covered]
      exact .inr ⟨⟨rfl, rfl⟩, _, rfl, rfl⟩
    · rw [failed, none]
      exact .inl ⟨fun accepted => (nomatch accepted.2), fault, rfl⟩

/-- A write leaves buffers sound, whatever it seals. -/
theorem sound_of_write {memory : GuardedMemory} (sound : memory.Sound) {address : Address}
    {data : Bytes} {buffers : MappedMemory}
    (wrote : MappedMemory.write address data memory.buffers = .ok () buffers)
    (readOnly : List AddressRange) : Sound { memory with buffers, readOnly } := by
  have extents := MappedMemory.extents_write address data memory.buffers
  rw [wrote] at extents
  constructor
  · exact MappedMemory.apart_of_extents extents sound.apart
  · intro extent mem
    exact sound.regions_end extent (extents ▸ mem)
  · exact sound.ranges_end

/-- A protected write succeeds just when the range is accepted. -/
theorem write_eq_ok_iff {memory : GuardedMemory} (sound : memory.Sound) {address : Address}
    {data : Bytes} :
    (∃ after, write address data memory = .ok () after) ↔ memory.Accepts address data.length := by
  rcases write_cases sound address data with ⟨refused, fault, failed⟩ | ⟨accepted, buffers, -, done⟩
  · rw [failed]
    exact iff_of_false nofun refused
  · rw [done]
    exact iff_of_true ⟨_, rfl⟩ accepted

/-- Which bytes are to be written makes no difference to whether they can be. -/
theorem canWrite_iff {memory : GuardedMemory} (sound : memory.Sound) {address : Address}
    {length : Nat} : CanWrite memory address length ↔ memory.Accepts address length := by
  constructor
  · intro able
    have zeros := (write_eq_ok_iff sound).mp (able (Bytes.zeros length) (Bytes.length_zeros length))
    rwa [Bytes.length_zeros] at zeros
  · intro accepted data same
    apply (write_eq_ok_iff sound).mpr
    rwa [same]

/-- Protected buffers of which no range is sealed by a write. -/
structure Fixed (memory : GuardedMemory) : Prop extends memory.Sound where
  none_sealed : memory.writeOnce = []

/-- A single region is sound if it and the ranges end inside the address space. -/
theorem sound_of_region {region : Mapping} (short : region.extent.2 < Address.limit)
    {readOnly writeOnce : List AddressRange}
    (ranges_end : ∀ range ∈ writeOnce, range.start + range.length < Address.limit) :
    Sound ⟨⟨[region]⟩, readOnly, writeOnce⟩ :=
  ⟨List.pairwise_singleton _ _, List.forall_mem_singleton.mpr short, ranges_end⟩

/-- A single region of which nothing is sealed is fixed. -/
theorem fixed_of_region {region : Mapping} (short : region.extent.2 < Address.limit)
    (readOnly : List AddressRange) : Fixed ⟨⟨[region]⟩, readOnly, []⟩ :=
  ⟨sound_of_region short nofun, rfl⟩

end GuardedMemory

/-- Protected buffers are a memory of bytes, though a write may make later ones fail. -/
theorem guarded_bytes : ByteMemory GuardedMemory.Sound where
  possible_write := by
    intro memory sound address data
    change (finalState (GuardedMemory.write address data memory)).Sound
    rcases GuardedMemory.write_cases sound address data with
      ⟨-, fault, failed⟩ | ⟨-, buffers, wrote, done⟩
    · rw [failed]
      exact sound
    · rw [done]
      exact GuardedMemory.sound_of_write sound wrote _
  length_read := by
    intro memory sound address length bytes read
    exact mapped_steady.length_read sound.apart read
  read_agree := by
    intro memory sound address address' length length' bytes bytes' read read'
    exact mapped_steady.read_agree sound.apart read read'
  read_write := by
    intro memory after sound address data wrote
    rcases GuardedMemory.write_cases sound address data with
      ⟨-, fault, failed⟩ | ⟨-, buffers, wrote_buffers, done⟩
    · cases wrote.symm.trans failed
    · cases wrote.symm.trans done
      exact mapped_steady.read_write sound.apart wrote_buffers
  read_failed := by
    intro memory after sound address data fault failed start length
    rcases GuardedMemory.write_cases sound address data with
      ⟨-, fault', failed'⟩ | ⟨-, buffers, -, done⟩
    · cases failed.symm.trans failed'
      rfl
    · cases failed.symm.trans done

/-- Protected buffers grow by new regions. -/
theorem guarded_growing : GrowingMemory GuardedMemory.Sound where
  toByteMemory := guarded_bytes
  allocate := by
    intro memory grown sound near base size allocated
    have on_buffers : AddressSpace.allocateNear near size =
      GuardedMemory.onBuffers (MappedMemory.allocateNear near size) := rfl
    rw [on_buffers, GuardedMemory.onBuffers] at allocated
    split at allocated
    next value buffers done =>
      cases allocated
      obtain ⟨rfl, short, apart⟩ := MappedMemory.allocateFirst_eq_ok done
      refine ⟨⟨MappedMemory.apart_append sound.apart apart, ?_, sound.ranges_end⟩,
        ⟨(MappedMemory.extends_append memory.buffers _).keeps⟩, ?_⟩
      · intro extent mem
        rw [List.map_append, List.mem_append] at mem
        rcases mem with old | new
        · exact sound.regions_end extent old
        · cases List.mem_singleton.mp new
          change (_ : Nat) + (Bytes.zeros size).length < _
          rwa [Bytes.length_zeros]
      · intro address length bytes read index bound
        exact MappedMemory.outside_of_apart apart read bound
    next => cases allocated

/-- Protected buffers are steady as long as no write seals a range. -/
theorem guarded_steady : SteadyMemory GuardedMemory.Fixed where
  possible_write := by
    intro memory fixed address data
    have sound := guarded_bytes.possible_write fixed.toSound address data
    refine ⟨sound, ?_⟩
    change (finalState (GuardedMemory.write address data memory)).writeOnce = []
    rcases GuardedMemory.write_cases fixed.toSound address data with
      ⟨-, fault, failed⟩ | ⟨-, buffers, -, done⟩
    · rw [failed]
      exact fixed.none_sealed
    · rw [done]
      exact fixed.none_sealed
  length_read := fun fixed => guarded_bytes.length_read fixed.toSound
  read_agree := fun fixed => guarded_bytes.read_agree fixed.toSound
  read_write := fun fixed => guarded_bytes.read_write fixed.toSound
  read_failed := fun fixed => guarded_bytes.read_failed fixed.toSound
  canWrite_of_write := by
    intro memory after fixed address data wrote
    rw [GuardedMemory.canWrite_iff fixed.toSound]
    exact (GuardedMemory.write_eq_ok_iff fixed.toSound).mp ⟨after, wrote⟩
  canWrite_write := by
    intro memory fixed address data start length
    have sound := guarded_bytes.possible_write fixed.toSound address data
    rw [GuardedMemory.canWrite_iff sound, GuardedMemory.canWrite_iff fixed.toSound]
    change (finalState (GuardedMemory.write address data memory)).Accepts start length ↔ _
    rcases GuardedMemory.write_cases fixed.toSound address data with
      ⟨-, fault, failed⟩ | ⟨-, buffers, wrote, done⟩
    · rw [failed]
      exact Iff.rfl
    -- without sealed ranges and with the locks unchanged, only the extents decide
    · have extents := MappedMemory.extents_write address data memory.buffers
      rw [wrote] at extents
      have same := MappedMemory.any_covers_congr extents start length
      rw [done, fixed.none_sealed, List.filter_nil, List.append_nil]
      exact and_congr_right' (Iff.of_eq (congrArg (· = true) same))

/-! ## Rehearsals -/

open Rehearsal

/-- The memory of the rehearsal is its buffers. -/
theorem rehearsal_memory : MemoryOf World.memory where
  read_eq := fun _ _ _ => rfl
  write_eq := by
    intro address data world
    change mapState World.memory (World.onMemory (AddressSpace.write address data) world) = _
    unfold World.onMemory
    cases AddressSpace.write address data world.memory <;> rfl

/-- New memory in the rehearsal lies apart from all that is there. -/
theorem rehearsal_growing : GrowingMemory fun world : World => world.memory.Sound where
  toByteMemory := rehearsal_memory.byteMemory guarded_bytes
  allocate := by
    intro world grown sound near base size allocated
    have on_memory : (AddressSpace.allocateNear near size : EStateM Fault World Address) =
      World.onMemory (AddressSpace.allocateNear near size) := rfl
    rw [on_memory, World.onMemory] at allocated
    split at allocated
    next value memory done =>
      cases allocated
      obtain ⟨there, still, fresh⟩ := guarded_growing.allocate sound done
      exact ⟨there, ⟨still.keeps⟩, fresh⟩
    next => cases allocated

/-- As long as nothing is sealed, the rehearsal's writable ranges are fixed. -/
theorem rehearsal_steady : SteadyMemory fun world : World => world.memory.Fixed :=
  rehearsal_memory.steadyMemory guarded_steady

end Memory

end CilCapture
