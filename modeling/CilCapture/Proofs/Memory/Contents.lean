import CilCapture.Memory.Space
import CilCapture.Proofs.Outcome

/-!
# The bytes of a memory

What is asked of an address space so that its bytes can be spoken of, in three steps. Reads have the
length that was asked for and agree where they meet (`ReadableMemory`). A write that succeeds lays
its bytes over what was there, one that fails changes nothing (`ByteMemory`). In a `SteadyMemory` it
is moreover the range alone that decides whether a write succeeds, and no write changes that.

Bytes that were all read at one moment can be put back in any order, whatever ranges overlap: the
whole memory is then as it was, if nothing else was written over (`sameBytes_of_restored`), and each
of the ranges is in any case (`held_of_restored`).

The laws are asked of possible worlds only, so that an instance may restrict itself to memories
whose buffers lie apart. A world that writes lead to is possible again
(`ByteMemory.possible_written`).

What several stores come to is a list of stores laid over each other (`byteAfter`), and overlaps are
then a matter of which store comes last. The restoring lemmas need no more than that.
-/

namespace CilCapture.Memory

/-- Bytes for an address. -/
structure Store where
  address : Nat
  data : Bytes
  deriving DecidableEq, Repr

namespace Store

def covers (store : Store) (address : Nat) : Prop :=
  store.address ≤ address ∧ address < store.address + store.data.length

/-- What stands at an address after a store, if `byte` stood there before. -/
def byteAt (store : Store) (address : Nat) (byte : UInt8) : UInt8 :=
  if store.address ≤ address then (store.data[address - store.address]?).getD byte else byte

/-- A store changes no byte outside of its range. -/
theorem byteAt_of_not_covers {store : Store} {address : Nat} (outside : ¬ store.covers address)
    (byte : UInt8) : store.byteAt address byte = byte := by
  unfold byteAt
  split
  next above =>
    have beyond : store.data.length ≤ address - store.address := by
      unfold covers at outside
      omega
    rw [List.getElem?_eq_none beyond, Option.getD_none]
  next => rfl

/-- Inside of its range stands the byte that it puts there. -/
theorem byteAt_of_covers {store : Store} {address : Nat} (inside : store.covers address)
    (byte : UInt8) : store.data[address - store.address]? = some (store.byteAt address byte) := by
  have bound : address - store.address < store.data.length := by
    obtain ⟨above, below⟩ := inside
    omega
  rw [byteAt, if_pos inside.1, List.getElem?_eq_getElem bound, Option.getD_some]

end Store

/-- Stores that go nowhere but where others go. -/
def Within (stores sites : List Store) : Prop :=
  ∀ store ∈ stores, ∀ address, store.covers address → ∃ site ∈ sites, site.covers address

/-- Stores that go where others go do so together. -/
theorem Within.append {first second sites : List Store} (within : Within first sites)
    (within' : Within second sites) : Within (first ++ second) sites := by
  intro store mem
  rcases List.mem_append.mp mem with mem | mem
  · exact within store mem
  · exact within' store mem

/-- Fewer stores go to no more places. -/
theorem Within.mono {stores others sites : List Store} (within : Within stores sites)
    (subset : others ⊆ stores) : Within others sites :=
  fun store mem => within store (subset mem)

/-- What stands at an address after several stores, one after the other. -/
def byteAfter (stores : List Store) (address : Nat) (byte : UInt8) : UInt8 :=
  stores.foldl (fun byte store => store.byteAt address byte) byte

/-- What is read from `start` on after several stores, if `bytes` were read there before. -/
def bytesAfter (stores : List Store) (start : Address) (bytes : Bytes) : Bytes :=
  bytes.mapIdx fun index byte => byteAfter stores (start + index) byte

/-- What none of the stores covers stays as it was. -/
theorem byteAfter_of_not_covered {stores : List Store} {address : Nat}
    (outside : ∀ store ∈ stores, ¬ store.covers address) (byte : UInt8) :
    byteAfter stores address byte = byte := by
  induction stores generalizing byte with
  | nil => rfl
  | cons store stores ih =>
    rw [byteAfter, List.foldl_cons, Store.byteAt_of_not_covers (outside store List.mem_cons_self)]
    exact ih (fun other mem => outside other (List.mem_cons_of_mem _ mem)) byte

/-- Stores that cover an address leave there what does not depend on what stood there before. -/
theorem byteAfter_covered_congr {stores : List Store} {address : Nat}
    (inside : ∃ store ∈ stores, store.covers address) (byte byte' : UInt8) :
    byteAfter stores address byte = byteAfter stores address byte' := by
  induction stores generalizing byte byte' with
  | nil => simp at inside
  | cons store stores ih =>
    rw [byteAfter, byteAfter, List.foldl_cons, List.foldl_cons]
    by_cases later : ∃ other ∈ stores, other.covers address
    · exact ih later _ _
    · have here : store.covers address := by
        obtain ⟨other, mem, covers⟩ := inside
        rcases List.mem_cons.mp mem with rfl | mem
        · exact covers
        · exact absurd ⟨other, mem, covers⟩ later
      have same : store.byteAt address byte = store.byteAt address byte' := by
        apply Option.some_inj.mp
        rw [← Store.byteAt_of_covers here, ← Store.byteAt_of_covers here]
      rw [same]

/-- Stores that agree with what stands at an address leave it there. -/
theorem byteAfter_of_agree {stores : List Store} {address : Nat} {byte : UInt8}
    (agree : ∀ store ∈ stores, store.covers address →
      store.data[address - store.address]? = some byte) :
    byteAfter stores address byte = byte := by
  induction stores with
  | nil => rfl
  | cons store stores ih =>
    have same : store.byteAt address byte = byte := by
      by_cases covers : store.covers address
      · apply Option.some_inj.mp
        rw [← Store.byteAt_of_covers covers, agree store List.mem_cons_self covers]
      · exact Store.byteAt_of_not_covers covers byte
    rw [byteAfter, List.foldl_cons, same]
    exact ih fun other mem => agree other (List.mem_cons_of_mem _ mem)

/-- Stores that agree on an address that one of them covers leave there what they agree on. -/
theorem byteAfter_of_covered {stores : List Store} {address : Nat} {wanted : UInt8}
    (agree : ∀ store ∈ stores, store.covers address →
      store.data[address - store.address]? = some wanted)
    (inside : ∃ store ∈ stores, store.covers address) (byte : UInt8) :
    byteAfter stores address byte = wanted :=
  (byteAfter_covered_congr inside byte wanted).trans (byteAfter_of_agree agree)

/-- Stores in two parts come one part after the other. -/
theorem byteAfter_append (first second : List Store) (address : Nat) (byte : UInt8) :
    byteAfter (first ++ second) address byte =
      byteAfter second address (byteAfter first address byte) :=
  List.foldl_append

@[simp] theorem length_bytesAfter (stores : List Store) (start : Address) (bytes : Bytes) :
    (bytesAfter stores start bytes).length = bytes.length := by
  simp [bytesAfter]

/-- Byte by byte, a range after stores. -/
theorem getElem?_bytesAfter (stores : List Store) (start : Address) (bytes : Bytes) (index : Nat) :
    (bytesAfter stores start bytes)[index]? =
      bytes[index]?.map (byteAfter stores (start + index)) := by
  simp [bytesAfter, List.getElem?_mapIdx]

/-- A range after stores in two parts. -/
theorem bytesAfter_append (first second : List Store) (start : Address) (bytes : Bytes) :
    bytesAfter (first ++ second) start bytes =
      bytesAfter second start (bytesAfter first start bytes) := by
  apply List.ext_getElem?
  intro index
  simp only [getElem?_bytesAfter, Option.map_map]
  exact congrArg (Option.map · bytes[index]?) (funext (byteAfter_append first second _))

@[simp] theorem bytesAfter_nil (start : Address) (bytes : Bytes) :
    bytesAfter [] start bytes = bytes := by
  apply List.ext_getElem?
  intro index
  rw [getElem?_bytesAfter]
  exact Option.map_id'

/-- Stores that do not meet a range leave it as it is. -/
theorem bytesAfter_of_not_covered {stores : List Store} {start : Address} {bytes : Bytes}
    (outside : ∀ store ∈ stores, ∀ index < bytes.length, ¬ store.covers (start + index)) :
    bytesAfter stores start bytes = bytes := by
  apply List.ext_getElem?
  intro index
  rw [getElem?_bytesAfter]
  by_cases bound : index < bytes.length
  · rw [List.getElem?_eq_getElem bound, Option.map_some,
      byteAfter_of_not_covered fun store mem => outside store mem index bound]
  · rw [List.getElem?_eq_none (Nat.le_of_not_lt bound), Option.map_none]

/-- A range that is stored whole holds what was stored. -/
theorem bytesAfter_same {store : Store} {bytes : Bytes} (same : bytes.length = store.data.length) :
    bytesAfter [store] store.address bytes = store.data := by
  apply List.ext_getElem?
  intro index
  rw [getElem?_bytesAfter]
  by_cases bound : index < bytes.length
  · have covers : store.covers (store.address + index) := ⟨Nat.le_add_right _ _, by omega⟩
    have stands := Store.byteAt_of_covers covers bytes[index]
    rw [Nat.add_sub_cancel_left] at stands
    rw [List.getElem?_eq_getElem bound, Option.map_some, stands]
    rfl
  · rw [List.getElem?_eq_none (Nat.le_of_not_lt bound),
      List.getElem?_eq_none (same ▸ Nat.le_of_not_lt bound), Option.map_none]

/-! ## Memories -/

variable {W : Type} [AddressSpace W]

/-- An address space whose worlds, as far as they are `possible`, have bytes: a read that succeeds
has as many as it was asked for, and reads of ranges that meet agree. -/
structure ReadableMemory (possible : W → Prop) : Prop where
  length_read : ∀ {world : W}, possible world → ∀ {address : Address} {length : Nat}
    {bytes : Bytes}, AddressSpace.read address length world = .ok bytes → bytes.length = length
  read_agree : ∀ {world : W}, possible world → ∀ {address address' : Address} {length length' : Nat}
    {bytes bytes' : Bytes}, AddressSpace.read address length world = .ok bytes →
    AddressSpace.read address' length' world = .ok bytes' → ∀ {index index' : Nat},
    address + index = address' + index' → index < length → index' < length' →
    bytes[index]? = bytes'[index']?

/-- A memory whose bytes writes lay over: a write that succeeds shows in every read and a write that
fails shows in none. -/
structure ByteMemory (possible : W → Prop) : Prop extends ReadableMemory possible where
  possible_write : ∀ {world : W}, possible world → ∀ (address : Address) (data : Bytes),
    possible (finalState (AddressSpace.write address data world))
  read_write : ∀ {world after : W}, possible world → ∀ {address : Address} {data : Bytes},
    AddressSpace.write address data world = .ok () after → ∀ (start : Address) (length : Nat),
    AddressSpace.read start length after =
      (AddressSpace.read start length world).map (bytesAfter [⟨address, data⟩] start)
  read_failed : ∀ {world after : W}, possible world → ∀ {address : Address} {data : Bytes}
    {fault : Fault}, AddressSpace.write address data world = .error fault after →
    ∀ (start : Address) (length : Nat),
    AddressSpace.read start length after = AddressSpace.read start length world

/-- Whether any bytes of a length can be written at an address. -/
def CanWrite (world : W) (address : Address) (length : Nat) : Prop :=
  ∀ data : Bytes, data.length = length →
    ∃ after, AddressSpace.write address data world = .ok () after

/-- A memory whose writable ranges are fixed: which bytes are written makes no difference, and
neither does what was written before. -/
structure SteadyMemory (possible : W → Prop) : Prop extends ByteMemory possible where
  canWrite_of_write : ∀ {world after : W}, possible world → ∀ {address : Address} {data : Bytes},
    AddressSpace.write address data world = .ok () after → CanWrite world address data.length
  canWrite_write : ∀ {world : W}, possible world → ∀ (address : Address) (data : Bytes)
    (start : Address) (length : Nat),
    CanWrite (finalState (AddressSpace.write address data world)) start length ↔
      CanWrite world start length

/-- Worlds with the same bytes, as far as they can be read. -/
def SameBytes (before after : W) : Prop :=
  ∀ (address : Address) (length : Nat),
    AddressSpace.read address length after = AddressSpace.read address length before

/-- Worlds that differ by stores, one after the other. -/
def Overlaid (stores : List Store) (before after : W) : Prop :=
  ∀ (start : Address) (length : Nat), AddressSpace.read start length after =
    (AddressSpace.read start length before).map (bytesAfter stores start)

/-- A store whose bytes stand at its address. -/
def Store.Held (store : Store) (world : W) : Prop :=
  AddressSpace.read store.address store.data.length world = .ok store.data

theorem SameBytes.refl (world : W) : SameBytes world world := fun _ _ => rfl

theorem SameBytes.trans {before middle after : W} (first : SameBytes before middle)
    (second : SameBytes middle after) : SameBytes before after :=
  fun address length => (second address length).trans (first address length)

/-- Bytes that stand somewhere do so in every world with the same bytes. -/
theorem SameBytes.held {before after : W} (same : SameBytes before after) {store : Store}
    (held : store.Held before) : store.Held after :=
  (same _ _).trans held

/-- What is laid over a world is laid over every one with the same bytes. -/
theorem SameBytes.overlaid {stores : List Store} {before middle after : W}
    (same : SameBytes before middle) (overlaid : Overlaid stores middle after) :
    Overlaid stores before after := by
  intro start length
  rw [overlaid, same]

/-- A world that stores lead to may be replaced by one with the same bytes. -/
theorem Overlaid.sameBytes {stores : List Store} {before middle after : W}
    (overlaid : Overlaid stores before middle) (same : SameBytes middle after) :
    Overlaid stores before after := by
  intro start length
  rw [same, overlaid]

/-- Stores lie over each other in their order. -/
theorem Overlaid.append {first second : List Store} {before middle after : W}
    (overlaid : Overlaid first before middle) (overlaid' : Overlaid second middle after) :
    Overlaid (first ++ second) before after := by
  intro start length
  rw [overlaid', overlaid]
  cases AddressSpace.read start length before with
  | error fault => rfl
  | ok bytes => exact congrArg Except.ok (bytesAfter_append first second start bytes).symm

/-- Stores that are covered by later ones make no difference. -/
theorem Overlaid.collapse {first second : List Store} {before middle after : W}
    (overlaid : Overlaid first before middle) (overlaid' : Overlaid second middle after)
    (inside : Within first second) : Overlaid second before after := by
  intro start length
  rw [overlaid', overlaid]
  cases AddressSpace.read start length before with
  | error fault => rfl
  | ok bytes =>
    apply congrArg Except.ok
    apply List.ext_getElem?
    intro index
    rw [getElem?_bytesAfter, getElem?_bytesAfter, getElem?_bytesAfter, Option.map_map]
    apply congrArg (Option.map · bytes[index]?)
    funext byte
    rw [Function.comp_apply]
    by_cases covered : ∃ other ∈ second, other.covers (start + index)
    · exact byteAfter_covered_congr covered _ _
    · rw [byteAfter_of_not_covered fun store mem covers => covered (inside store mem _ covers)]

/-- Without a store nothing is laid over. -/
theorem overlaid_nil (world : W) : Overlaid [] world world := by
  intro start length
  cases AddressSpace.read start length world with
  | error fault => rfl
  | ok bytes => exact congrArg Except.ok (bytesAfter_nil start bytes).symm

/-- A world that still has every byte that could be read before. -/
structure Extends (before after : W) : Prop where
  keeps : ∀ {address : Address} {length : Nat} {bytes : Bytes},
    AddressSpace.read address length before = .ok bytes →
    AddressSpace.read address length after = .ok bytes

theorem Extends.refl (world : W) : Extends world world := ⟨id⟩

theorem Extends.trans {before middle after : W} (first : Extends before middle)
    (second : Extends middle after) : Extends before after :=
  ⟨fun read => second.keeps (first.keeps read)⟩

/-- A memory in which new memory lies apart from all that can be read, and leaves it as it is. -/
structure GrowingMemory (possible : W → Prop) : Prop extends ByteMemory possible where
  allocate : ∀ {world grown : W}, possible world → ∀ {near base : Address} {size : Nat},
    AddressSpace.allocateNear near size world = .ok base grown →
    possible grown ∧ Extends world grown ∧
      ∀ {address : Address} {length : Nat} {bytes : Bytes},
        AddressSpace.read address length world = .ok bytes →
        ∀ index < length, ¬ (base ≤ address + index ∧ address + index < base + size)

/-! ## Writing one after the other -/

/-- Stores that all succeed, one after the other. -/
inductive Stores : List Store → W → W → Prop
  | nil (world : W) : Stores [] world world
  | cons {store : Store} {stores : List Store} {world middle after : W}
      (wrote : AddressSpace.write store.address store.data world = .ok () middle)
      (rest : Stores stores middle after) : Stores (store :: stores) world after

/-- Stores succeed one after the other, the first one first. -/
theorem stores_cons_iff {store : Store} {stores : List Store} {world after : W} :
    Stores (store :: stores) world after ↔
      ∃ middle, AddressSpace.write store.address store.data world = .ok () middle ∧
        Stores stores middle after := by
  constructor
  · intro stored
    cases stored with
    | cons wrote rest => exact ⟨_, wrote, rest⟩
  · rintro ⟨middle, wrote, rest⟩
    exact .cons wrote rest

/-- The world after attempts to write, one after the other, whether they succeed or fail. -/
def writeEach (stores : List Store) (world : W) : W :=
  stores.foldl
    (fun world store => finalState (AddressSpace.write store.address store.data world)) world

/-- Attempts to write come one after the other, the first one first. -/
theorem writeEach_cons (store : Store) (stores : List Store) (world : W) :
    writeEach (store :: stores) world =
      writeEach stores (finalState (AddressSpace.write store.address store.data world)) :=
  rfl

/-- Attempts in two parts come one part after the other. -/
theorem writeEach_append (first second : List Store) (world : W) :
    writeEach (first ++ second) world = writeEach second (writeEach first world) :=
  List.foldl_append

/-- Where all of them succeed, attempts to write lead where the stores do. -/
theorem Stores.writeEach_eq {stores : List Store} {world after : W}
    (stored : Stores stores world after) : writeEach stores world = after := by
  induction stored with
  | nil world => rfl
  | cons wrote _ ih => rw [writeEach_cons, wrote, finalState, ih]

/-- Worlds that attempts to write lead to. -/
def Written (start world : W) : Prop := ∃ stores, writeEach stores start = world

theorem Written.refl (world : W) : Written world world := ⟨[], rfl⟩

/-- What further attempts lead to is led to by all of them. -/
theorem Written.trans {start middle world : W} (first : Written start middle)
    (second : Written middle world) : Written start world := by
  obtain ⟨stores, rfl⟩ := first
  obtain ⟨more, rfl⟩ := second
  exact ⟨stores ++ more, writeEach_append stores more start⟩

/-- A write leads to where it ends, whether it succeeds or fails. -/
theorem Written.of_write {world after : W} {address : Address} {data : Bytes}
    {result : EStateM.Result Fault W Unit} (wrote : AddressSpace.write address data world = result)
    (final : finalState result = after) : Written world after :=
  ⟨[⟨address, data⟩], (congrArg finalState wrote).trans final⟩

/-- Stores are attempts to write. -/
theorem Stores.written {stores : List Store} {world after : W}
    (stored : Stores stores world after) : Written world after :=
  ⟨stores, stored.writeEach_eq⟩

/-- A store that is sure to succeed, now and after whatever is written. -/
def Store.Assured (store : Store) (world : W) : Prop :=
  ∀ later, Written world later →
    ∃ after, AddressSpace.write store.address store.data later = .ok () after

/-- What is sure to succeed now is so later. -/
theorem Store.Assured.later {store : Store} {world later : W} (assured : store.Assured world)
    (written : Written world later) : store.Assured later :=
  fun last more => assured last (written.trans more)

/-- Stores that are all sure to succeed do, one after the other. -/
theorem stores_of_assured {stores : List Store} {world : W}
    (assured : ∀ store ∈ stores, store.Assured world) :
    Stores stores world (writeEach stores world) := by
  induction stores generalizing world with
  | nil => exact .nil world
  | cons store stores ih =>
    obtain ⟨middle, wrote⟩ := assured store List.mem_cons_self world (.refl world)
    have step : Written world middle := .of_write wrote rfl
    have rest := ih fun other mem => (assured other (List.mem_cons_of_mem _ mem)).later step
    rw [writeEach_cons, wrote]
    exact .cons wrote rest

section

variable {possible : W → Prop}

/-- Attempts to write lead from possible worlds to possible ones. -/
theorem ByteMemory.possible_written (memory : ByteMemory possible) {start world : W}
    (here : possible start) (written : Written start world) : possible world := by
  obtain ⟨stores, rfl⟩ := written
  induction stores generalizing start with
  | nil => exact here
  | cons store stores ih => exact ih (memory.possible_write here _ _)

/-- A write leads from a possible world to a possible one, whatever its result. -/
theorem ByteMemory.possible_of_write (memory : ByteMemory possible) {world : W}
    (here : possible world) {address : Address} {data : Bytes}
    {result : EStateM.Result Fault W Unit}
    (wrote : AddressSpace.write address data world = result) : possible (finalState result) :=
  wrote ▸ memory.possible_write here address data

/-- A write that fails shows in no read. -/
theorem ByteMemory.sameBytes_of_failed (memory : ByteMemory possible) {world after : W}
    (here : possible world) {address : Address} {data : Bytes} {fault : Fault}
    (failed : AddressSpace.write address data world = .error fault after) :
    SameBytes world after :=
  memory.read_failed here failed

/-- Stores that succeed are laid over the world in their order. The induction is on the stores; each
of them leads to a possible world, for which the law of writes holds again. -/
theorem ByteMemory.overlaid_of_stores (memory : ByteMemory possible) {stores : List Store}
    {world after : W} (here : possible world) (stored : Stores stores world after) :
    Overlaid stores world after := by
  induction stored with
  | nil world => exact overlaid_nil world
  | @cons store stores world middle after wrote rest ih =>
    have there := memory.possible_written here (.of_write wrote rfl)
    exact Overlaid.append (memory.read_write here wrote) (ih there)

/-- What was stored stands where it was stored, if the range can be read. -/
theorem ByteMemory.held_of_write (memory : ByteMemory possible) {store : Store} {world after : W}
    (here : possible world)
    (wrote : AddressSpace.write store.address store.data world = .ok () after) {bytes : Bytes}
    (readable : AddressSpace.read store.address store.data.length world = .ok bytes) :
    store.Held after := by
  unfold Store.Held
  rw [memory.read_write here wrote, readable]
  exact congrArg Except.ok (bytesAfter_same (memory.length_read here readable))

/-- Of stores that are attempted some are laid over what was there. -/
theorem ByteMemory.overlaid_writeEach (memory : ByteMemory possible) {world : W}
    (here : possible world) (stores : List Store) :
    ∃ kept, kept.Sublist stores ∧ Overlaid kept world (writeEach stores world) := by
  induction stores generalizing world with
  | nil => exact ⟨[], .slnil, overlaid_nil world⟩
  | cons store stores ih =>
    have there := memory.possible_write here store.address store.data
    obtain ⟨kept, sublist, overlaid⟩ := ih there
    rw [writeEach_cons]
    cases result : AddressSpace.write store.address store.data world with
    | ok done middle =>
      rw [result] at overlaid
      exact ⟨store :: kept, sublist.cons_cons store,
        Overlaid.append (memory.read_write here result) overlaid⟩
    | error fault middle =>
      rw [result] at overlaid
      exact ⟨kept, sublist.cons store, (memory.sameBytes_of_failed here result).overlaid overlaid⟩

/-- What can be read can still be read after any writes. -/
theorem ByteMemory.readable_written (memory : ByteMemory possible) {start world : W}
    (here : possible start) (written : Written start world) {address : Address} {length : Nat}
    {bytes : Bytes} (read : AddressSpace.read address length start = .ok bytes) :
    ∃ later, AddressSpace.read address length world = .ok later := by
  obtain ⟨stores, rfl⟩ := written
  obtain ⟨kept, -, overlaid⟩ := memory.overlaid_writeEach here stores
  exact ⟨_, (overlaid address length).trans (congrArg _ read)⟩

/-- Where ranges are fixed, writing changes nothing about what can be written. -/
theorem SteadyMemory.canWrite_written (memory : SteadyMemory possible) {start world : W}
    (here : possible start) (written : Written start world) (address : Address) (length : Nat) :
    CanWrite world address length ↔ CanWrite start address length := by
  obtain ⟨stores, rfl⟩ := written
  induction stores generalizing start with
  | nil => exact Iff.rfl
  | cons store stores ih =>
    have there := memory.possible_write here store.address store.data
    exact (ih there).trans (memory.canWrite_write here store.address store.data address length)

/-- In a steady memory what can be written once can always be written. -/
theorem SteadyMemory.assured_of_canWrite (memory : SteadyMemory possible) {world : W}
    (here : possible world) {store : Store}
    (able : CanWrite world store.address store.data.length) : store.Assured world := by
  intro later written
  exact (memory.canWrite_written here written _ _).mpr able store.data rfl

/-- Bytes that stood somewhere at the same moment agree where their ranges meet. -/
theorem ByteMemory.getElem?_of_held (memory : ByteMemory possible) {world : W}
    (here : possible world) {store : Store} (held : store.Held world) {start : Address}
    {length : Nat} {bytes : Bytes} (read : AddressSpace.read start length world = .ok bytes)
    {index : Nat} (bound : index < bytes.length) (covers : store.covers (start + index)) :
    store.data[start + index - store.address]? = bytes[index]? := by
  obtain ⟨above, below⟩ := covers
  have same_length := memory.length_read here read
  exact memory.read_agree here held read (Nat.add_sub_of_le above) (by omega) (by omega)

/-- Writing back what was read at one moment undoes all that was written over it since. -/
theorem sameBytes_of_restored (memory : ByteMemory possible) {originals written : List Store}
    {world changed restored : W} (here : possible world)
    (held : ∀ store ∈ originals, store.Held world)
    (inside : Within written originals)
    (overlaid : Overlaid written world changed) (back : Overlaid originals changed restored) :
    SameBytes world restored := by
  intro start length
  rw [back, overlaid]
  cases read : AddressSpace.read start length world with
  | error fault => rfl
  | ok bytes =>
    apply congrArg Except.ok
    apply List.ext_getElem?
    intro index
    rw [getElem?_bytesAfter, getElem?_bytesAfter, Option.map_map]
    by_cases bound : index < bytes.length
    · rw [List.getElem?_eq_getElem bound, Option.map_some, Function.comp_apply]
      by_cases covered : ∃ original ∈ originals, original.covers (start + index)
      · rw [byteAfter_of_covered _ covered]
        intro original mem covers
        rw [memory.getElem?_of_held here (held original mem) read bound covers,
          List.getElem?_eq_getElem bound]
      · have untouched : ∀ store ∈ written, ¬ store.covers (start + index) :=
          fun store mem covers => covered (inside store mem _ covers)
        rw [byteAfter_of_not_covered fun original mem covers => covered ⟨original, mem, covers⟩,
          byteAfter_of_not_covered untouched]
    · rw [List.getElem?_eq_none (Nat.le_of_not_lt bound), Option.map_none]

/-- Writing back what was read at one moment gives each of the ranges back, whatever happened to
them since. -/
theorem held_of_restored (memory : ByteMemory possible) {originals : List Store}
    {world changed restored : W} (here : possible world) (there : possible changed)
    (held : ∀ store ∈ originals, store.Held world) (back : Overlaid originals changed restored)
    {store : Store} (mem : store ∈ originals) {bytes : Bytes}
    (readable : AddressSpace.read store.address store.data.length changed = .ok bytes) :
    store.Held restored := by
  have same_length := memory.length_read there readable
  unfold Store.Held
  rw [back, readable]
  apply congrArg Except.ok
  apply List.ext_getElem?
  intro index
  rw [getElem?_bytesAfter]
  by_cases bound : index < store.data.length
  · have covers : store.covers (store.address + index) := ⟨Nat.le_add_right _ _, by omega⟩
    rw [List.getElem?_eq_getElem bound, List.getElem?_eq_getElem (same_length ▸ bound),
      Option.map_some, byteAfter_of_covered _ ⟨store, mem, covers⟩]
    intro other other_mem other_covers
    rw [memory.getElem?_of_held here (held other other_mem) (held store mem) bound other_covers,
      List.getElem?_eq_getElem bound]
  · rw [List.getElem?_eq_none (Nat.le_of_not_lt bound),
      List.getElem?_eq_none (same_length ▸ Nat.le_of_not_lt bound), Option.map_none]

end

/-! ## A memory as part of a greater world -/

/-- A result of a step, with the part of the state that matters. -/
def mapState {ε V W α : Type} (part : V → W) : EStateM.Result ε V α → EStateM.Result ε W α
  | .ok value state => .ok value (part state)
  | .error failure state => .error failure (part state)

/-- Taking a part of the state commutes with taking the last state. -/
theorem finalState_mapState {ε V W α : Type} (part : V → W) (result : EStateM.Result ε V α) :
    finalState (mapState part result) = part (finalState result) := by
  cases result <;> rfl

/-- A world whose memory is that of a part of it. -/
structure MemoryOf {V : Type} [AddressSpace V] (part : V → W) : Prop where
  read_eq : ∀ (address : Address) (length : Nat) (whole : V),
    AddressSpace.read address length whole = AddressSpace.read address length (part whole)
  write_eq : ∀ (address : Address) (data : Bytes) (whole : V),
    mapState part (AddressSpace.write address data whole) =
      AddressSpace.write address data (part whole)

namespace MemoryOf

variable {V : Type} [AddressSpace V] {part : V → W} {possible : W → Prop}

/-- A write that succeeds in the whole does so in the part. -/
theorem write_ok (memory : MemoryOf part) {address : Address} {data : Bytes} {whole after : V}
    (wrote : AddressSpace.write address data whole = .ok () after) :
    AddressSpace.write address data (part whole) = .ok () (part after) := by
  rw [← memory.write_eq, wrote]
  rfl

/-- A write ends in the part where it would end in it by itself. -/
theorem finalState_write (memory : MemoryOf part) (address : Address) (data : Bytes) (whole : V) :
    part (finalState (AddressSpace.write address data whole)) =
      finalState (AddressSpace.write address data (part whole)) := by
  rw [← memory.write_eq, finalState_mapState]

/-- The same can be written in the whole as in the part. -/
theorem canWrite_iff (memory : MemoryOf part) (whole : V) (address : Address) (length : Nat) :
    CanWrite whole address length ↔ CanWrite (part whole) address length := by
  constructor
  · intro able data same
    obtain ⟨after, wrote⟩ := able data same
    exact ⟨part after, memory.write_ok wrote⟩
  · intro able data same
    obtain ⟨after, wrote⟩ := able data same
    rw [← memory.write_eq] at wrote
    cases result : AddressSpace.write address data whole with
    | ok done final => exact ⟨final, rfl⟩
    | error fault final =>
      rw [result] at wrote
      cases wrote

/-- The laws of bytes pass from a part to the whole around it. -/
theorem byteMemory (memory : MemoryOf part) (bytes : ByteMemory possible) :
    ByteMemory fun whole => possible (part whole) where
  possible_write := by
    intro whole here address data
    rw [memory.finalState_write]
    exact bytes.possible_write here address data
  length_read := by
    intro whole here address length read_bytes read
    exact bytes.length_read here ((memory.read_eq _ _ _).symm.trans read)
  read_agree := by
    intro whole here address address' length length' first second read read'
    rw [memory.read_eq] at read read'
    exact bytes.read_agree here read read'
  read_write := by
    intro whole after here address data wrote start length
    rw [memory.read_eq, memory.read_eq]
    exact bytes.read_write here (memory.write_ok wrote) start length
  read_failed := by
    intro whole after here address data fault failed start length
    have failed_part :
        AddressSpace.write address data (part whole) = .error fault (part after) := by
      rw [← memory.write_eq, failed]
      rfl
    rw [memory.read_eq, memory.read_eq]
    exact bytes.read_failed here failed_part start length

/-- The law that writable ranges are fixed passes from a part to the whole around it. -/
theorem steadyMemory (memory : MemoryOf part) (steady : SteadyMemory possible) :
    SteadyMemory fun whole => possible (part whole) where
  toByteMemory := memory.byteMemory steady.toByteMemory
  canWrite_of_write := by
    intro whole after here address data wrote
    rw [memory.canWrite_iff]
    exact steady.canWrite_of_write here (memory.write_ok wrote)
  canWrite_write := by
    intro whole here address data start length
    rw [memory.canWrite_iff, memory.canWrite_iff, memory.finalState_write]
    exact steady.canWrite_write here address data start length

end MemoryOf

end CilCapture.Memory
