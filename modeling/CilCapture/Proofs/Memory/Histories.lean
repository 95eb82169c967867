import CilCapture.Proofs.Memory.Near

/-!
# Histories of a memory of buffers

What a memory of buffers answers is told here by the calls that were made to it, not by its regions
as they are now. `Recorded` keeps the memory beside what the calls that succeeded have put where;
the byte at an address is then the one that was last written there, or the one that was mapped there
(`Recorded.byte?`). That the two agree is an invariant of every call (`Recorded.Sound`), and what it
comes to for the next call is `Recorded.Faithful`.

A range that would end beyond the greatest address is one that no memory has: mapping it fails, like
every access to it.

The invariant is about one call after another and says nothing of what was called; each law of the
memory is read off it for the next call. Buffers are recorded in the order in which they were
mapped, writes with the latest first, so that looking up a byte is finding the first entry that
covers it.

Calls that fail are recorded as nothing, and it is shown that they have changed nothing either
(`map_eq_error`, `write_eq_error`, `allocateNear_eq_error`).
-/

namespace CilCapture.Memory

/-! ## Calls and what they leave -/

/-- A call to a memory of buffers. -/
inductive Call where
  | map (base : Address) (bytes : Bytes)
  | read (address : Address) (length : Nat)
  | write (address : Address) (data : Bytes)
  | allocateNear (near : Address) (size : Nat)
  deriving DecidableEq, Repr

namespace Store

/-- The byte that a store puts at an address. -/
def byte? (store : Store) (address : Nat) : Option UInt8 :=
  if store.address ≤ address then store.data[address - store.address]? else none

/-- Where a store starts, and where it ends. -/
def extent (store : Store) : Nat × Nat := (store.address, store.address + store.data.length)

/-- A store puts no byte where it does not cover. -/
theorem byte?_eq_none_iff {store : Store} {address : Nat} :
    store.byte? address = none ↔ ¬ store.covers address := by
  unfold byte? covers
  split
  next above =>
    rw [List.getElem?_eq_none_iff]
    omega
  next => exact iff_of_true rfl (by omega)

/-- What stands at an address after a store is its byte there, or what stood there before. -/
theorem byteAt_eq (store : Store) (address : Nat) (byte : UInt8) :
    store.byteAt address byte = (store.byte? address).getD byte := by
  unfold byteAt byte?
  split <;> rfl

end Store

/-- A memory beside what was put into it. -/
structure Recorded where
  memory : MappedMemory
  /-- Buffers where they were mapped, in that order. -/
  mapped : List Store
  /-- Bytes where they were written, the latest first. -/
  written : List Store
  deriving Repr

namespace Recorded

def start : Recorded := ⟨.empty, [], []⟩

/-- The record once a buffer is mapped. -/
def mapping (recorded : Recorded) (store : Store) : Recorded :=
  { recorded with mapped := recorded.mapped ++ [store] }

/-- The record once bytes are written. -/
def writing (recorded : Recorded) (store : Store) : Recorded :=
  { recorded with written := store :: recorded.written }

/-- The memory that a call leaves, beside what is recorded if it succeeds. -/
def settle {α : Type} (recorded : Recorded) (result : EStateM.Result Fault MappedMemory α)
    (success : α → Recorded) : Recorded :=
  match result with
  | .ok value memory => { success value with memory }
  | .error _ memory => { recorded with memory }

/-- Takes a call; one that fails is not recorded. -/
def after (recorded : Recorded) : Call → Recorded
  | .map base bytes =>
    recorded.settle (MappedMemory.map base bytes recorded.memory) fun _ =>
      recorded.mapping ⟨base, bytes⟩
  | .read address length =>
    recorded.settle (load address length recorded.memory) fun _ => recorded
  | .write address data =>
    recorded.settle (MappedMemory.write address data recorded.memory) fun _ =>
      recorded.writing ⟨address, data⟩
  | .allocateNear near size =>
    recorded.settle (MappedMemory.allocateNear near size recorded.memory) fun base =>
      recorded.mapping ⟨base, Bytes.zeros size⟩

/-- A memory after calls, one after the other. -/
def run (calls : List Call) : Recorded := calls.foldl after start

/-- The byte that was last written at an address, or the one that was mapped there. -/
def byte? (recorded : Recorded) (address : Nat) : Option UInt8 :=
  (recorded.written.findSome? (·.byte? address)).or (recorded.mapped.findSome? (·.byte? address))

end Recorded

/-- A region as a store that puts all of its bytes at once. -/
theorem Mapping.getElem?_slice_eq {region : Mapping} {address length index : Nat}
    (inside : region.covers address length = true) (bound : index < length) :
    (region.slice address length)[index]? =
      Store.byte? ⟨region.base, region.bytes⟩ (address + index) := by
  obtain ⟨above, -⟩ := Mapping.covers_iff.mp inside
  have there : region.base ≤ address + index := Nat.le_add_right_of_le above
  rw [Mapping.getElem?_slice bound, Store.byte?, if_pos there, ← Nat.sub_add_comm above]
  rfl

/-! ## One call -/

/-- Loading leaves the memory as it is. -/
theorem finalState_load {W : Type} [AddressSpace W] (address : Address) (length : Nat) (world : W) :
    finalState (load address length world) = world := by
  unfold load
  split <;> rfl

namespace MappedMemory

/-- A range can be read just when one region covers it. -/
theorem read_isOk_iff {memory : MappedMemory} {address : Address} {length : Nat} :
    (∃ bytes, memory.read address length = .ok bytes) ↔
      memory.regions.any (·.covers address length) = true := by
  rw [List.any_eq_true, ← List.find?_isSome, MappedMemory.read]
  cases memory.regions.find? (·.covers address length) <;> simp

/-- Covering a range is having it between the ends of a region. -/
theorem any_covers_iff {regions : List Mapping} {address length : Nat} :
    regions.any (·.covers address length) = true ↔
      ∃ region ∈ regions, region.base ≤ address ∧
        address + length ≤ region.base + region.bytes.length := by
  simp only [List.any_eq_true, Mapping.covers_iff]
  exact Iff.rfl

/-- A buffer is mapped just when it ends inside the address space and overlaps none that is there;
it comes behind the others. -/
theorem map_eq_ok_iff {base : Address} {bytes : Bytes} {memory after : MappedMemory} :
    map base bytes memory = .ok () after ↔
      (base + bytes.length : Nat) < Address.limit ∧
      (∀ region ∈ memory.regions, region.overlaps base bytes.length = false) ∧
      after = ⟨memory.regions ++ [⟨base, bytes⟩]⟩ := by
  unfold map
  split
  next long => exact iff_of_false nofun fun mapped => absurd mapped.1 (Nat.not_lt.mpr long)
  next short =>
    split
    next taken =>
      refine iff_of_false nofun fun mapped => ?_
      obtain ⟨region, mem, overlaps⟩ := List.any_eq_true.mp taken
      rw [mapped.2.1 region mem] at overlaps
      cases overlaps
    next free =>
      rw [List.any_eq_true, not_exists] at free
      constructor
      · intro same
        cases same
        refine ⟨Nat.lt_of_not_le short, fun region mem => ?_, rfl⟩
        exact Bool.eq_false_iff.mpr fun overlaps => free region ⟨mem, overlaps⟩
      · rintro ⟨-, -, rfl⟩
        rfl

/-- Mapping that fails changes nothing. -/
theorem map_eq_error {base : Address} {bytes : Bytes} {memory after : MappedMemory} {fault : Fault}
    (failed : map base bytes memory = .error fault after) : after = memory := by
  unfold map at failed
  split at failed
  next => cases failed; rfl
  next =>
    split at failed
    all_goals cases failed
    rfl

/-- A write that fails changes nothing. -/
theorem write_eq_error {address : Address} {data : Bytes} {memory after : MappedMemory}
    {fault : Fault} (failed : MappedMemory.write address data memory = .error fault after) :
    after = memory := by
  rcases write_cases address data memory with ⟨stored, -, wrote⟩ | ⟨-, fault', failed'⟩
  · cases failed.symm.trans wrote
  · cases failed.symm.trans failed'
    rfl

/-- An allocation adds a zeroed region apart from the others. -/
theorem allocateNear_eq_ok {near base : Address} {size : Nat} {memory after : MappedMemory}
    (allocated : MappedMemory.allocateNear near size memory = .ok base after) :
    after = ⟨memory.regions ++ [⟨base, Bytes.zeros size⟩]⟩ ∧
      ∀ region ∈ memory.regions, region.Apart ⟨base, Bytes.zeros size⟩ := by
  rw [MappedMemory.allocateNear] at allocated
  obtain ⟨grown, -, apart⟩ := allocateFirst_eq_ok allocated
  exact ⟨grown, apart⟩

/-- An allocation that fails changes nothing. -/
theorem allocateNear_eq_error {near : Address} {size : Nat} {memory after : MappedMemory}
    {fault : Fault} (failed : MappedMemory.allocateNear near size memory = .error fault after) :
    after = memory := by
  rw [MappedMemory.allocateNear, allocateFirst] at failed
  split at failed
  next =>
    split at failed
    all_goals cases failed
    rfl
  next => cases failed; rfl

/-- What was written is what is read there next, as far as it is read. -/
theorem read_of_write {address length : Nat} {data : Bytes} {memory after : MappedMemory}
    (apart : memory.Apart) (wrote : MappedMemory.write address data memory = .ok () after)
    (short : length ≤ data.length) : after.read address length = .ok (data.take length) := by
  have covered := write_eq_ok_iff.mp ⟨after, wrote⟩
  obtain ⟨old, readable⟩ := read_isOk_iff.mpr covered
  have whole : after.read address data.length = .ok data :=
    @ByteMemory.held_of_write _ _ _ mapped_steady.toByteMemory ⟨address, data⟩ _ _ apart wrote
      old readable
  obtain ⟨region, mem, inside⟩ := List.any_eq_true.mp (read_isOk_iff.mp ⟨data, whole⟩)
  obtain ⟨above, below⟩ := Mapping.covers_iff.mp inside
  have part : region.covers address length = true :=
    Mapping.covers_iff.mpr ⟨above, Nat.le_trans (Nat.add_le_add_left short _) below⟩
  obtain ⟨bytes, read⟩ := read_isOk_iff.mpr (List.any_eq_true.mpr ⟨region, mem, part⟩)
  have there : after.Apart := mapped_steady.possible_of_write apart wrote
  have same_length : bytes.length = length := mapped_steady.length_read there read
  rw [read]
  apply congrArg Except.ok
  apply List.ext_getElem?
  intro index
  by_cases bound : index < length
  · rw [List.getElem?_take_of_lt bound]
    exact mapped_steady.read_agree there read whole rfl bound (by omega)
  · rw [List.getElem?_eq_none (by omega), List.getElem?_eq_none (by rw [List.length_take]; omega)]

end MappedMemory

/-! ## What every call preserves -/

namespace Recorded

/-- A memory that is as its record says. -/
structure Sound (recorded : Recorded) : Prop where
  apart : recorded.memory.Apart
  /-- Regions are where buffers were mapped. -/
  regions : recorded.mapped.map Store.extent = recorded.memory.regions.map Mapping.extent
  /-- Bytes were only written inside regions. -/
  within : ∀ store ∈ recorded.written,
    recorded.memory.regions.any (·.covers store.address store.data.length) = true
  stands : ∀ {address length : Nat} {bytes : Bytes},
    recorded.memory.read address length = .ok bytes →
      ∀ index < length, bytes[index]? = recorded.byte? (address + index)

/-- Nothing is mapped and nothing is recorded in the beginning. -/
theorem sound_start : Sound start where
  apart := List.Pairwise.nil
  regions := rfl
  within := nofun
  stands := nofun

variable {recorded : Recorded}

/-- All that was put into the memory lies in regions. -/
theorem Sound.covered (sound : recorded.Sound) {store : Store}
    (mem : store ∈ recorded.written ∨ store ∈ recorded.mapped) :
    ∃ region ∈ recorded.memory.regions,
      region.covers store.address store.data.length = true := by
  rcases mem with mem | mem
  · exact List.any_eq_true.mp (sound.within store mem)
  · have extent_mem : store.extent ∈ recorded.mapped.map Store.extent := List.mem_map_of_mem mem
    rw [sound.regions] at extent_mem
    obtain ⟨region, region_mem, same⟩ := List.mem_map.mp extent_mem
    refine ⟨region, region_mem, ?_⟩
    rw [Mapping.covers_iff, same]
    exact ⟨Nat.le_refl _, Nat.le_refl _⟩

/-- Nothing was put where a new region goes. -/
theorem Sound.byte?_eq_none (sound : recorded.Sound) {added : Mapping}
    (apart : ∀ region ∈ recorded.memory.regions, region.Apart added) {address : Nat}
    (inside : added.extent.1 ≤ address ∧ address < added.extent.2) :
    recorded.byte? address = none := by
  have absent {store : Store} (mem : store ∈ recorded.written ∨ store ∈ recorded.mapped) :
      store.byte? address = none := by
    obtain ⟨region, region_mem, covers⟩ := sound.covered mem
    obtain ⟨above, below⟩ := Mapping.covers_iff.mp covers
    refine Store.byte?_eq_none_iff.mpr fun there => ?_
    obtain ⟨from_, upto⟩ := there
    obtain ⟨from', upto'⟩ := inside
    rcases apart region region_mem with before | before <;> omega
  rw [Recorded.byte?, List.findSome?_eq_none_iff.mpr fun store mem => absent (.inl mem),
    List.findSome?_eq_none_iff.mpr fun store mem => absent (.inr mem), Option.or_none]

/-- A new region holds the bytes that it was mapped with, and the others what they held. -/
theorem Sound.append (sound : recorded.Sound) {base : Address} {bytes : Bytes}
    (apart : ∀ region ∈ recorded.memory.regions, region.Apart ⟨base, bytes⟩) :
    Sound ⟨⟨recorded.memory.regions ++ [⟨base, bytes⟩]⟩, recorded.mapped ++ [⟨base, bytes⟩],
      recorded.written⟩ where
  apart := MappedMemory.apart_append sound.apart apart
  regions := by
    rw [List.map_append, List.map_append, sound.regions]
    rfl
  within := by
    intro store mem
    rw [List.any_append, sound.within store mem, Bool.true_or]
  stands := by
    intro address length read_bytes read index bound
    have grown : Recorded.byte? ⟨⟨recorded.memory.regions ++ [⟨base, bytes⟩]⟩,
        recorded.mapped ++ [⟨base, bytes⟩], recorded.written⟩ (address + index) =
          (recorded.byte? (address + index)).or (Store.byte? ⟨base, bytes⟩ (address + index)) := by
      simp only [Recorded.byte?, List.findSome?_append, Option.or_assoc, List.findSome?_cons,
        List.findSome?_nil]
      cases Store.byte? ⟨base, bytes⟩ (address + index) <;> rfl
    rw [grown]
    -- an old region answers as it did, and the record had a byte there already; else the new region
    -- answers, where the record was still silent
    cases old : recorded.memory.read address length with
    | ok old_bytes =>
      have extends_ := MappedMemory.extends_append recorded.memory ⟨base, bytes⟩
      obtain rfl : old_bytes = read_bytes := Except.ok.inj ((extends_.keeps old).symm.trans read)
      have present : index < old_bytes.length := by
        rw [mapped_steady.length_read sound.apart old]
        exact bound
      rw [← sound.stands old index bound, List.getElem?_eq_getElem present, Option.some_or]
    | error fault =>
      obtain ⟨region, mem, inside, rfl⟩ := MappedMemory.read_eq_ok read
      rcases List.mem_append.mp mem with mem | mem
      · obtain ⟨other, there⟩ := MappedMemory.read_isOk_iff.mpr
          (List.any_eq_true.mpr ⟨region, mem, inside⟩)
        cases old.symm.trans there
      · cases List.mem_singleton.mp mem
        obtain ⟨above, below⟩ := Mapping.covers_iff.mp inside
        have here : (Mapping.extent ⟨base, bytes⟩).1 ≤ address + index ∧
            address + index < (Mapping.extent ⟨base, bytes⟩).2 := by omega
        rw [sound.byte?_eq_none apart here, Option.none_or]
        exact Mapping.getElem?_slice_eq inside bound

/-- A write that is recorded leaves the record sound: where it covers, the latest store is the one
that is found first, and elsewhere it is passed over. -/
theorem Sound.write (sound : recorded.Sound) {store : Store} {memory : MappedMemory}
    (wrote : MappedMemory.write store.address store.data recorded.memory = .ok () memory) :
    Sound ⟨memory, recorded.mapped, store :: recorded.written⟩ := by
  have extents := MappedMemory.extents_write store.address store.data recorded.memory
  rw [wrote] at extents
  have extents : memory.regions.map Mapping.extent = recorded.memory.regions.map Mapping.extent :=
    extents
  constructor
  · exact MappedMemory.apart_of_extents extents sound.apart
  · rw [sound.regions]
    exact extents.symm
  · intro other mem
    rw [MappedMemory.any_covers_congr extents]
    rcases List.mem_cons.mp mem with rfl | mem
    · exact MappedMemory.write_eq_ok_iff.mp ⟨memory, wrote⟩
    · exact sound.within other mem
  · intro address length bytes read index bound
    have laid : memory.read address length =
        (recorded.memory.read address length).map (bytesAfter [store] address) :=
      mapped_steady.read_write sound.apart wrote address length
    rw [read] at laid
    -- a read that succeeds now succeeded before, at the same extents
    cases old : recorded.memory.read address length with
    | error fault =>
      rw [old] at laid
      cases laid
    | ok old_bytes =>
      rw [old] at laid
      cases laid
      have present : index < old_bytes.length := by
        rw [mapped_steady.length_read sound.apart old]
        exact bound
      have stood := sound.stands old index bound
      rw [List.getElem?_eq_getElem present] at stood
      rw [getElem?_bytesAfter, List.getElem?_eq_getElem present, Option.map_some]
      -- the write is the latest store, so `findSome?` asks it first
      change some (store.byteAt (address + index) _) = _
      rw [Store.byteAt_eq]
      unfold Recorded.byte? at stood ⊢
      rw [List.findSome?_cons]
      cases store.byte? (address + index) with
      | some byte => rfl
      | none => exact stood

/-- What holds after a success and after a failure holds after the call. -/
theorem settle_cases {α : Type} {holds : Recorded → Prop}
    {result : EStateM.Result Fault MappedMemory α} {success : α → Recorded}
    (succeeded : ∀ value memory, result = .ok value memory → holds { success value with memory })
    (failed : ∀ fault memory, result = .error fault memory → holds { recorded with memory }) :
    holds (recorded.settle result success) := by
  cases result with
  | ok value memory => exact succeeded value memory rfl
  | error fault memory => exact failed fault memory rfl

/-- A call keeps a memory as its record says. -/
theorem Sound.after (sound : recorded.Sound) (call : Call) : (recorded.after call).Sound := by
  cases call with rw [Recorded.after]
  | map base bytes =>
    refine settle_cases (fun _ memory mapped => ?_) (fun fault memory failed => ?_)
    · obtain ⟨-, free, rfl⟩ := MappedMemory.map_eq_ok_iff.mp mapped
      exact sound.append fun region mem => MappedMemory.apart_of_free (free region mem)
    · cases MappedMemory.map_eq_error failed
      exact sound
  | read address length =>
    refine settle_cases (fun bytes memory loaded => ?_) (fun fault memory failed => ?_)
    · obtain rfl : recorded.memory = memory :=
        (finalState_load address length _).symm.trans (congrArg finalState loaded)
      exact sound
    · obtain rfl : recorded.memory = memory :=
        (finalState_load address length _).symm.trans (congrArg finalState failed)
      exact sound
  | write address data =>
    refine settle_cases (fun _ memory wrote => ?_) (fun fault memory failed => ?_)
    · exact @Sound.write recorded sound ⟨address, data⟩ memory wrote
    · cases MappedMemory.write_eq_error failed
      exact sound
  | allocateNear near size =>
    refine settle_cases (fun base memory allocated => ?_) (fun fault memory failed => ?_)
    · obtain ⟨rfl, apart⟩ := MappedMemory.allocateNear_eq_ok allocated
      exact sound.append apart
    · cases MappedMemory.allocateNear_eq_error failed
      exact sound

/-- After any calls the memory is as recorded. The induction is on the calls, with `Sound.after` for
each. -/
theorem sound_run (calls : List Call) : (run calls).Sound := by
  have step (calls : List Call) : ∀ {recorded : Recorded}, recorded.Sound →
      (calls.foldl Recorded.after recorded).Sound := by
    induction calls with
    | nil => exact id
    | cons call calls ih => exact fun sound => ih (sound.after call)
  exact step calls sound_start

end Recorded

/-! ## Numbers -/

/-- Loading what can be read succeeds and changes nothing. -/
theorem load_of_read {memory : MappedMemory} {address : Address} {length : Nat} {bytes : Bytes}
    (read : memory.read address length = .ok bytes) :
    load address length memory = .ok bytes memory := by
  have read : AddressSpace.read address length memory = .ok bytes := read
  rw [load, read]

/-- A number that stands at an address is read there, as far as it is read. -/
theorem loadPointer_of_read {memory : MappedMemory} {address : Address} {size value : Nat}
    (small : size ≤ Address.width)
    (read : memory.read address size = .ok (Bytes.ofNat size value)) :
    loadPointer address size memory = .ok (value % Bytes.capacity size) memory := by
  rw [← Bytes.toNat_ofNat, loadPointer, withPointer, if_pos small]
  simp only [bind, EStateM.bind, load_of_read read]
  rfl

/-- A word that is read is loaded with its sign. -/
theorem loadInt_of_read {memory : MappedMemory} {address : Address} {value : Nat}
    (read : memory.read address 4 = .ok (Bytes.ofNat 4 value)) :
    loadInt address memory = .ok (UInt32.ofNat value).toInt32.toInt memory := by
  have same : UInt32.ofNat (Bytes.ofNat 4 value).toNat = UInt32.ofNat value := by
    rw [Bytes.toNat_ofNat, ← UInt32.toNat_inj, UInt32.toNat_ofNat', UInt32.toNat_ofNat']
    exact Nat.mod_mod _ _
  rw [← same]
  simp only [loadInt, bind, EStateM.bind, load_of_read read]
  rfl

/-- A pointer is stored as its bytes, if it is no wider than an address. -/
theorem storePointer_eq_ok {memory after : MappedMemory} {address value : Address} {size : Nat}
    (stored : storePointer address size value memory = .ok () after) :
    size ≤ Address.width ∧
      MappedMemory.write address (Bytes.ofNat size value) memory = .ok () after := by
  unfold storePointer withPointer at stored
  split at stored
  next small => exact ⟨small, stored⟩
  next => cases stored

/-- A signed number is stored as the word that has its bits. -/
theorem ofInt_four (value : Int32) :
    Bytes.ofInt 4 value.toInt = Bytes.ofNat 4 value.toUInt32.toNat := by
  have bits : value.toInt = (value.toUInt32.toNat : Int).bmod 0x100000000 :=
    BitVec.toInt_eq_toNat_bmod value.toBitVec
  have low := value.toUInt32.toNat_lt
  have same : (value.toInt % (0x100000000 : Nat)).toNat = value.toUInt32.toNat := by
    rw [bits, Int.bmod_def]
    omega
  exact congrArg (Bytes.ofNat 4) same

/-- A number that was written is read there next, its low bytes if fewer are read. -/
theorem read_number {address size width value : Nat} {memory after : MappedMemory}
    (apart : memory.Apart)
    (wrote : MappedMemory.write address (Bytes.ofNat size value) memory = .ok () after)
    (narrow : width ≤ size) : after.read address width = .ok (Bytes.ofNat width value) := by
  have short : width ≤ (Bytes.ofNat size value).length := by rwa [Bytes.length_ofNat]
  rw [MappedMemory.read_of_write apart wrote short, Bytes.take_ofNat narrow]

/-! ## What a memory is to its caller -/

/-- Whether an address is one of a region. -/
def Mapping.Holds (region : Mapping) (address : Nat) : Prop :=
  region.base ≤ address ∧ address < region.base + region.bytes.length

/-- Whether a whole range lies inside one region. -/
def MappedMemory.HasRange (memory : MappedMemory) (address length : Nat) : Prop :=
  ∃ region ∈ memory.regions, region.base ≤ address ∧
    address + length ≤ region.base + region.bytes.length

/-- Whether a range has an address in common with a region, or an empty region strictly inside. -/
def Mapping.Meets (region : Mapping) (base length : Nat) : Prop :=
  (∃ address, region.Holds address ∧ base ≤ address ∧ address < base + length) ∨
    region.bytes = [] ∧ base < region.base ∧ region.base < base + length

/-- What the next call to a memory does, by what was put into it. -/
structure Recorded.Faithful (recorded : Recorded) : Prop where
  /-- Regions are where buffers were mapped, and no address is in two of them. -/
  regions : recorded.memory.regions.map Mapping.extent = recorded.mapped.map Store.extent
  disjoint : recorded.memory.regions.Pairwise fun first second =>
    ∀ address, ¬ (first.Holds address ∧ second.Holds address)
  /-- A range can be read, and written, exactly inside one region. -/
  read_isOk : ∀ address length,
    (∃ bytes, MappedMemory.read address length recorded.memory = .ok bytes) ↔
      recorded.memory.HasRange address length
  write_isOk : ∀ address data,
    (∃ after, MappedMemory.write address data recorded.memory = .ok () after) ↔
      recorded.memory.HasRange address data.length
  /-- What is read is what was last written, or mapped. -/
  bytes_read : ∀ {address length : Nat} {bytes : Bytes},
    MappedMemory.read address length recorded.memory = .ok bytes →
      bytes.length = length ∧
        ∀ index < length, bytes[index]? = recorded.byte? (address + index)
  /-- Bytes outside of what is written stay as they are. -/
  bytes_kept : ∀ {address : Nat} {data : Bytes} {after : MappedMemory},
    MappedMemory.write address data recorded.memory = .ok () after →
      after.regions.map Mapping.extent = recorded.memory.regions.map Mapping.extent ∧
      ∀ {start length : Nat} {bytes : Bytes},
        MappedMemory.read start length recorded.memory = .ok bytes →
        ∃ now, MappedMemory.read start length after = .ok now ∧
          ∀ index < length, ¬ (address ≤ start + index ∧ start + index < address + data.length) →
            now[index]? = bytes[index]?
  /-- A call that fails changes nothing. -/
  failed : ∀ {after : MappedMemory} {fault : Fault},
    (∀ base bytes, MappedMemory.map base bytes recorded.memory = .error fault after →
      after = recorded.memory) ∧
    (∀ address length, load address length recorded.memory = .error fault after →
      after = recorded.memory) ∧
    (∀ address data, MappedMemory.write address data recorded.memory = .error fault after →
      after = recorded.memory) ∧
    ∀ near size, MappedMemory.allocateNear near size recorded.memory = .error fault after →
      after = recorded.memory
  /-- A buffer with bytes in it is not mapped where it ends past the last address or meets a
  region, and only there. -/
  map_fails : ∀ base bytes, bytes ≠ [] →
    ((∃ fault after, MappedMemory.map base bytes recorded.memory = .error fault after) ↔
      Address.limit ≤ base + bytes.length ∨
        ∃ region ∈ recorded.memory.regions, region.Meets base bytes.length)
  /-- Numbers are read as they were stored, as far as they are read. -/
  pointer_pointer : ∀ {address value size : Nat} {after : MappedMemory},
    storePointer address size value recorded.memory = .ok () after →
      ∀ width ≤ size, loadPointer address width after = .ok (value % Bytes.capacity width) after
  pointer_int : ∀ {address value size : Nat} {after : MappedMemory},
    storePointer address size value recorded.memory = .ok () after → 4 ≤ size →
      loadInt address after = .ok (UInt32.ofNat value).toInt32.toInt after
  int_int : ∀ {address : Nat} {value : Int32} {after : MappedMemory},
    storeInt address value.toInt recorded.memory = .ok () after →
      loadInt address after = .ok value.toInt after
  int_pointer : ∀ {address : Nat} {value : Int32} {after : MappedMemory},
    storeInt address value.toInt recorded.memory = .ok () after →
      ∀ width ≤ 4,
        loadPointer address width after = .ok (value.toUInt32.toNat % Bytes.capacity width) after

/-- Regions that lie apart have no address in common. -/
theorem Mapping.not_holds_both {first second : Mapping} (apart : first.Apart second)
    (address : Nat) : ¬ (first.Holds address ∧ second.Holds address) := by
  rintro ⟨⟨above, below⟩, above', below'⟩
  rcases apart with before | before
  · exact absurd (Nat.lt_of_lt_of_le below (Nat.le_trans before above')) (Nat.lt_irrefl _)
  · exact absurd (Nat.lt_of_lt_of_le below' (Nat.le_trans before above)) (Nat.lt_irrefl _)

/-- For a range that is not empty, to overlap is to meet. An empty region has no address; it is met
by a range that it lies strictly inside of. -/
theorem Mapping.overlaps_iff_meets {region : Mapping} {base length : Nat} (positive : 0 < length) :
    region.overlaps base length = true ↔ region.Meets base length := by
  obtain ⟨start, bytes⟩ := region
  rw [Mapping.overlaps_iff, Mapping.Meets]
  dsimp only [Mapping.extent, Mapping.Holds, Address]
  constructor
  · rintro ⟨below, above⟩
    cases bytes with
    | nil =>
      rw [List.length_nil, Nat.add_zero] at below
      exact .inr ⟨rfl, below, above⟩
    | cons byte bytes =>
      rw [List.length_cons] at below
      refine .inl ⟨max base start, ?_⟩
      rw [List.length_cons]
      omega
  · rintro (⟨address, ⟨from_, upto⟩, from', upto'⟩ | ⟨rfl, below, above⟩)
    · omega
    · rw [List.length_nil]
      omega

/-- Mapping fails just for want of address space or because of a region in the way. -/
theorem MappedMemory.map_fails_iff {memory : MappedMemory} {base : Nat} {bytes : Bytes} :
    (∃ fault after, MappedMemory.map base bytes memory = .error fault after) ↔
      Address.limit ≤ base + bytes.length ∨
        ∃ region ∈ memory.regions, region.overlaps base bytes.length = true := by
  rw [← List.any_eq_true, MappedMemory.map]
  split
  next long => exact iff_of_true ⟨_, _, rfl⟩ (.inl long)
  next short =>
    split
    next taken => exact iff_of_true ⟨_, _, rfl⟩ (.inr taken)
    next free => exact iff_of_false nofun (not_or.mpr ⟨short, free⟩)

/-- A memory that is as its record says is to its caller what was put into it. -/
theorem Recorded.Sound.faithful {recorded : Recorded} (sound : recorded.Sound) :
    recorded.Faithful where
  regions := sound.regions.symm
  disjoint := sound.apart.imp fun apart => Mapping.not_holds_both apart
  read_isOk := fun address length =>
    MappedMemory.read_isOk_iff.trans MappedMemory.any_covers_iff
  write_isOk := fun address data =>
    MappedMemory.write_eq_ok_iff.trans MappedMemory.any_covers_iff
  bytes_read := fun read => ⟨mapped_steady.length_read sound.apart read, sound.stands read⟩
  bytes_kept := by
    intro address data after wrote
    have extents := MappedMemory.extents_write address data recorded.memory
    rw [wrote] at extents
    refine ⟨extents, ?_⟩
    intro start length bytes read
    have laid : after.read start length =
        (recorded.memory.read start length).map (bytesAfter [⟨address, data⟩] start) :=
      mapped_steady.read_write sound.apart wrote start length
    rw [read] at laid
    refine ⟨_, laid, fun index bound outside => ?_⟩
    -- the bytes outside the write are those that `bytesAfter` does not touch
    have untouched : ∀ store ∈ [Store.mk address data], ¬ store.covers (start + index) :=
      List.forall_mem_singleton.mpr outside
    rw [getElem?_bytesAfter]
    cases bytes[index]? with
    | none => rfl
    | some byte => exact congrArg some (byteAfter_of_not_covered untouched byte)
  failed := by
    intro after fault
    refine ⟨fun _ _ => MappedMemory.map_eq_error, fun address length failed => ?_,
      fun _ _ => MappedMemory.write_eq_error, fun _ _ => MappedMemory.allocateNear_eq_error⟩
    exact (congrArg finalState failed).symm.trans (finalState_load address length _)
  map_fails := by
    intro base bytes nonempty
    have positive : 0 < bytes.length := List.length_pos_iff.mpr nonempty
    rw [MappedMemory.map_fails_iff]
    simp only [Mapping.overlaps_iff_meets positive]
  pointer_pointer := by
    intro address value size after stored width narrow
    obtain ⟨small, wrote⟩ := storePointer_eq_ok stored
    exact loadPointer_of_read (Nat.le_trans narrow small) (read_number sound.apart wrote narrow)
  pointer_int := by
    intro address value size after stored wide
    exact loadInt_of_read (read_number sound.apart (storePointer_eq_ok stored).2 wide)
  int_int := by
    intro address value after stored
    rw [storeInt, ofInt_four] at stored
    rw [loadInt_of_read (read_number sound.apart stored (Nat.le_refl 4))]
    simp
  int_pointer := by
    intro address value after stored width narrow
    rw [storeInt, ofInt_four] at stored
    exact loadPointer_of_read (Nat.le_trans narrow (by decide))
      (read_number sound.apart stored narrow)

/-- Whatever calls were made to a memory, it holds what they have put there: regions do not meet, a
range can be read and written exactly inside one of them, what is read is what was last written or
mapped, a write changes no other byte, and a call that fails changes nothing. -/
theorem faithful_run (calls : List Call) : (Recorded.run calls).Faithful :=
  (Recorded.sound_run calls).faithful

/-- Two regions side by side, a buffer that would meet one of them, and writes of which the last
would need both. -/
def neighbours : List Call := [.map 0x1000 [1, 2, 3, 4], .map 0x1004 [5], .map 0x1003 [6],
  .write 0x1001 [7, 8], .write 0x1002 [9], .write 0x1003 [10, 11]]

/-- Of the buffers the third would meet the first and is not mapped; of the writes the third needs
two regions and is not made. Each byte is the one written last. -/
theorem faithful_run_neighbours :
    (Recorded.run neighbours).written = [⟨0x1002, [9]⟩, ⟨0x1001, [7, 8]⟩] ∧
    MappedMemory.read 0x1000 4 (Recorded.run neighbours).memory = .ok [1, 7, 9, 4] ∧
    (∀ index < 4, [1, 7, 9, 4][index]? = (Recorded.run neighbours).byte? (0x1000 + index)) ∧
    ¬ (Recorded.run neighbours).memory.HasRange 0x1003 2 := by
  have faithful := faithful_run neighbours
  have read : MappedMemory.read 0x1000 4 (Recorded.run neighbours).memory = .ok [1, 7, 9, 4] := rfl
  refine ⟨rfl, read, (faithful.bytes_read read).2, ?_⟩
  rw [← faithful.read_isOk]
  exact nofun

end CilCapture.Memory
