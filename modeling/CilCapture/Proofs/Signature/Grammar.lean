import Mathlib.Tactic.Choose
import Mathlib.Tactic.MkIffOfInductiveProp
import CilCapture.Proofs.Signature.Reading
import CilCapture.Signature.TypeWalk

/-!
# The grammar of type encodings

`TypeEncoding` says which bytes are a type encoding and how many levels it has below its root,
without a reader. The walk recognises the encodings that nest no deeper than its levels allow
(`recognises_skipWithin`), on every source. So it passes over a front part of a string exactly when
that part is an encoding within the bound, and over no other part, whatever follows
(`walksOver_iff`).

The grammar is inductive with one constructor for each form of a type, and carries the depth as an
index, so that the bound of the walk is a statement about an encoding and not about a reader. Types
in a list have depths of their own, of which the deepest counts.

The walk is described one level at a time: if the types inside are recognised, so is the form around
them (`recognises_skipShape`). The induction on the levels is then all that is left.
-/

namespace CilCapture.Signature

/-! ## Encodings -/

/-- How a value may be spelled as a compressed integer. The shortest form is not asked for. -/
@[mk_iff] inductive Spells : Nat → Bytes → Prop where
  | one {lead : UInt8} (low : lead.toNat < 0x80) : Spells lead.toNat [lead]
  | two {lead last : UInt8} (bits : 0x80 ≤ lead.toNat ∧ lead.toNat < 0xC0) :
    Spells (lead.toNat % 0x40 * 256 + last.toNat) [lead, last]
  | four {lead second third last : UInt8} (bits : 0xC0 ≤ lead.toNat ∧ lead.toNat < 0xE0) :
    Spells (((lead.toNat % 0x20 * 256 + second.toNat) * 256 + third.toNat) * 256 + last.toNat)
      [lead, second, third, last]

/-- A compressed integer of whatever value. -/
def IsInteger (bytes : Bytes) : Prop := ∃ value, Spells value bytes

/-- A counted list: how many items there are, and the items. -/
def Counted (item : Bytes → Prop) (bytes : Bytes) : Prop :=
  ∃ count front back, Spells count front ∧ Sequence item count back ∧ bytes = front ++ back

/-- Levels below a type whose parts have the given levels below them. -/
def deepest : List Nat → Nat
  | [] => 0
  | depth :: rest => max (depth + 1) (deepest rest)

/-- The bytes of one type encoding, and how many levels below its root its deepest type lies. Types
in a list stand with their own depths. -/
inductive TypeEncoding : Bytes → Nat → Prop where
  | primitive {tag : UInt8} (plain : isPrimitive tag = true) : TypeEncoding [tag] 0
  /-- A value type, a class, or a variable of a type or a method. -/
  | indexed {tag : UInt8} {index : Bytes} (kind : tag ∈ [0x11, 0x12, 0x13, 0x1E])
    (integer : IsInteger index) : TypeEncoding (tag :: index) 0
  /-- A pointer, a reference, a vector, a pinned type, or a type behind the sentinel. -/
  | wrapper {tag : UInt8} {type : Bytes} {depth : Nat}
    (kind : tag ∈ [0x0F, 0x10, 0x1D, 0x45, 0x41]) (wrapped : TypeEncoding type depth) :
    TypeEncoding (tag :: type) (depth + 1)
  /-- A type with an optional or a required modifier. -/
  | modifier {tag : UInt8} {index type : Bytes} {depth : Nat} (kind : tag ∈ [0x20, 0x1F])
    (integer : IsInteger index) (modified : TypeEncoding type depth) :
    TypeEncoding (tag :: (index ++ type)) (depth + 1)
  | array {type rank sizes bounds : Bytes} {depth : Nat} (element : TypeEncoding type depth)
    (integer : IsInteger rank) (sized : Counted IsInteger sizes)
    (bounded : Counted IsInteger bounds) :
    TypeEncoding (0x14 :: (type ++ (rank ++ (sizes ++ bounds)))) (depth + 1)
  /-- A generic type with its arguments; its kind byte is not looked at. -/
  | instantiation {kind : UInt8} {index count : Bytes} {arguments : List (Bytes × Nat)}
    (integer : IsInteger index) (counted : Spells arguments.length count)
    (each : ∀ argument ∈ arguments, TypeEncoding argument.1 argument.2) :
    TypeEncoding (0x15 :: kind :: (index ++ (count ++ (arguments.map (·.1)).flatten)))
      (deepest (arguments.map (·.2)))
  /-- A function pointer: the types are that of the result and those of the parameters. -/
  | function {convention : UInt8} {generics count : Bytes} {parameters : Nat}
    {types : List (Bytes × Nat)}
    (generic : if isGenericConvention convention then IsInteger generics else generics = [])
    (counted : Spells parameters count) (complete : types.length = parameters + 1)
    (each : ∀ type ∈ types, TypeEncoding type.1 type.2) :
    TypeEncoding (0x1B :: convention :: (generics ++ (count ++ (types.map (·.1)).flatten)))
      (deepest (types.map (·.2)))

/-- An encoding of at most so many levels, the root among them. -/
def TypeWithin (levels : Nat) (bytes : Bytes) : Prop := ∃ depth < levels, TypeEncoding bytes depth

/-! ## Tags and what follows them -/

/-- The tags of a shape. -/
def Shape.HasTag : Shape → UInt8 → Prop
  | .primitive, tag => isPrimitive tag = true
  | .indexed, tag => tag ∈ [0x11, 0x12, 0x13, 0x1E]
  | .wrapper, tag => tag ∈ [0x0F, 0x10, 0x1D, 0x45, 0x41]
  | .modifier, tag => tag ∈ [0x20, 0x1F]
  | .array, tag => tag = 0x14
  | .instantiation, tag => tag = 0x15
  | .function, tag => tag = 0x1B

/-- The table of tags, read in both directions. -/
theorem ofTag?_eq_some_iff {tag : UInt8} {shape : Shape} :
    Shape.ofTag? tag = some shape ↔ shape.HasTag tag := by
  constructor
  · intro known
    unfold Shape.ofTag? at known
    repeat' split at known
    all_goals cases known <;> assumption
  · intro has
    cases shape with
    | primitive => exact if_pos has
    | indexed | wrapper | modifier =>
      simp only [Shape.HasTag, List.mem_cons, List.not_mem_nil, or_false] at has
      rcases has with rfl | rfl | rfl | rfl | rfl <;> rfl
    | array | instantiation | function =>
      cases has
      rfl

/-- What follows the tag of an encoding, where `type` says what the types in it look like. -/
def Shape.Body (type : Bytes → Prop) : Shape → Bytes → Prop
  | .primitive, bytes => bytes = []
  | .indexed, bytes => IsInteger bytes
  | .wrapper, bytes => type bytes
  | .modifier, bytes => ∃ index inner, IsInteger index ∧ type inner ∧ bytes = index ++ inner
  | .array, bytes => ∃ element rank sizes bounds, type element ∧ IsInteger rank ∧
    Counted IsInteger sizes ∧ Counted IsInteger bounds ∧
    bytes = element ++ (rank ++ (sizes ++ bounds))
  | .instantiation, bytes => ∃ kind index arguments, IsInteger index ∧ Counted type arguments ∧
    bytes = kind :: (index ++ arguments)
  | .function, bytes => ∃ convention generics count types parameters,
    (if isGenericConvention convention then IsInteger generics else generics = []) ∧
    Spells parameters count ∧ Sequence type (parameters + 1) types ∧
    bytes = convention :: (generics ++ (count ++ types))

/-- A type lies no deeper than so many levels just when each of its parts has a level less. -/
theorem deepest_le_iff {depths : List Nat} {levels : Nat} :
    deepest depths ≤ levels ↔ ∀ depth ∈ depths, depth < levels := by
  induction depths with
  | nil => simp [deepest]
  | cons depth rest ih => rw [deepest, Nat.max_le, ih, List.forall_mem_cons, Nat.succ_le_iff]

/-- Types that all have some depth below a bound are types with their depths. -/
theorem sequence_within_iff {levels count : Nat} {bytes : Bytes} :
    Sequence (TypeWithin levels) count bytes ↔ ∃ types : List (Bytes × Nat), types.length = count ∧
      (∀ type ∈ types, TypeEncoding type.1 type.2) ∧ deepest (types.map (·.2)) ≤ levels ∧
      bytes = (types.map (·.1)).flatten := by
  simp only [deepest_le_iff, List.forall_mem_map]
  constructor
  · rintro ⟨items, rfl, each, rfl⟩
    choose! depth small encoding using each
    refine ⟨items.map fun item => (item, depth item), by simp, ?_, ?_, by simp [Function.comp_def]⟩
    · simpa using encoding
    · simpa using small
  · rintro ⟨types, rfl, each, small, rfl⟩
    refine ⟨types.map (·.1), by simp, ?_, rfl⟩
    rw [List.forall_mem_map]
    exact fun type mem => ⟨type.2, small type mem, each type mem⟩

/-- An encoding is a tag and what its shape asks for, one level down. -/
theorem typeWithin_succ_iff {levels : Nat} {bytes : Bytes} :
    TypeWithin (levels + 1) bytes ↔ ∃ tag body shape, bytes = tag :: body ∧
      Shape.ofTag? tag = some shape ∧ shape.Body (TypeWithin levels) body := by
  simp only [ofTag?_eq_some_iff]
  constructor
  -- forth: each rule of the grammar with one level less for the types inside it
  · rintro ⟨depth, small, encoding⟩
    cases encoding with
    | primitive plain => exact ⟨_, _, .primitive, rfl, plain, rfl⟩
    | indexed kind integer => exact ⟨_, _, .indexed, rfl, kind, integer⟩
    | wrapper kind wrapped =>
      exact ⟨_, _, .wrapper, rfl, kind, _, Nat.lt_of_succ_lt_succ small, wrapped⟩
    | modifier kind integer modified =>
      exact ⟨_, _, .modifier, rfl, kind, _, _, integer,
        ⟨_, Nat.lt_of_succ_lt_succ small, modified⟩, rfl⟩
    | array element integer sized bounded =>
      exact ⟨_, _, .array, rfl, rfl, _, _, _, _, ⟨_, Nat.lt_of_succ_lt_succ small, element⟩,
        integer, sized, bounded, rfl⟩
    | instantiation integer counted each =>
      have types := sequence_within_iff.mpr ⟨_, rfl, each, Nat.le_of_lt_succ small, rfl⟩
      exact ⟨_, _, .instantiation, rfl, rfl, _, _, _, integer, ⟨_, _, _, counted, types, rfl⟩, rfl⟩
    | function generic counted complete each =>
      have types := sequence_within_iff.mpr ⟨_, complete, each, Nat.le_of_lt_succ small, rfl⟩
      exact ⟨_, _, .function, rfl, rfl, _, _, _, _, _, generic, counted, types, rfl⟩
  -- back: the depth is one more than that of the deepest type inside
  · rintro ⟨tag, body, shape, rfl, has, there⟩
    cases shape with
    | primitive =>
      cases there
      exact ⟨0, Nat.succ_pos _, .primitive has⟩
    | indexed => exact ⟨0, Nat.succ_pos _, .indexed has there⟩
    | wrapper =>
      obtain ⟨depth, small, wrapped⟩ := there
      exact ⟨depth + 1, Nat.succ_lt_succ small, .wrapper has wrapped⟩
    | modifier =>
      obtain ⟨index, inner, integer, ⟨depth, small, modified⟩, rfl⟩ := there
      exact ⟨depth + 1, Nat.succ_lt_succ small, .modifier has integer modified⟩
    | array =>
      cases has
      obtain ⟨_, _, _, _, ⟨depth, small, element⟩, integer, sized, bounded, rfl⟩ := there
      exact ⟨depth + 1, Nat.succ_lt_succ small, .array element integer sized bounded⟩
    | instantiation =>
      cases has
      obtain ⟨kind, index, _, integer, ⟨_, count, _, counted, types, rfl⟩, rfl⟩ := there
      obtain ⟨types, rfl, each, small, rfl⟩ := sequence_within_iff.mp types
      exact ⟨_, Nat.lt_succ_of_le small, .instantiation integer counted each⟩
    | function =>
      cases has
      obtain ⟨convention, generics, count, _, parameters, generic, counted, types, rfl⟩ := there
      obtain ⟨types, complete, each, small, rfl⟩ := sequence_within_iff.mp types
      exact ⟨_, Nat.lt_succ_of_le small, .function generic counted complete each⟩

/-! ## The walk -/

section

variable {ρ : Type} [ByteSource ρ]

/-- Integers are read just where they are spelled. -/
theorem recognises_readCompressed : Recognises (readCompressed (ρ := ρ)) Spells := by
  unfold readCompressed
  refine (Recognises.next fun lead => .ite (recognises_pure _) <|
    .ite (.next fun last => recognises_pure _) <|
    .ite (.next fun second => .next fun third => .next fun last => recognises_pure _) <|
    recognises_throw _).congr fun value bytes => ?_
  constructor
  · rintro ⟨lead, rest, rfl, there⟩
    split at there
    next low =>
      obtain ⟨rfl, rfl⟩ := there
      exact .one low
    next high =>
      split at there
      next below =>
        obtain ⟨last, _, rfl, rfl, rfl⟩ := there
        exact .two ⟨Nat.le_of_not_lt high, below⟩
      next above =>
        split at there
        next below =>
          obtain ⟨second, _, rfl, third, _, rfl, last, _, rfl, rfl, rfl⟩ := there
          exact .four ⟨Nat.le_of_not_lt above, below⟩
        next => exact there.elim
  · intro spelled
    cases spelled with
    | one low => exact ⟨_, _, rfl, by simp [low]⟩
    | two bits => exact ⟨_, _, rfl, by simp [bits.2, Nat.not_lt.mpr bits.1]⟩
    | four bits =>
      refine ⟨_, _, rfl, ?_⟩
      rw [if_neg (by omega), if_neg (by omega), if_pos bits.2]
      simp

/-- Integers are passed over just where one is spelled, whatever its value. -/
theorem recognises_skipInteger : Recognises (skipInteger (ρ := ρ)) fun _ => IsInteger := by
  refine (recognises_readCompressed.bind fun _ => recognises_pure ()).congr fun _ bytes => ?_
  simp [IsInteger]

/-- A counted list is passed over just where a count and as many items stand. -/
theorem recognises_counted {step : EStateM Fault ρ Unit} {item : Bytes → Prop}
    (recognises : Recognises step fun _ => item) :
    Recognises (counted step) fun _ => Counted item :=
  recognises_readCompressed.bind fun count => recognises_times recognises count

/-- What follows a tag is passed over just where it is what the shape asks for, if the types in it
are. -/
theorem recognises_skipShape {nested : EStateM Fault ρ Unit} {type : Bytes → Prop}
    (recognises : Recognises nested fun _ => type) (shape : Shape) :
    Recognises (skipShape nested shape) fun _ => shape.Body type := by
  cases shape with
  | primitive => exact (recognises_pure ()).congr fun _ bytes => by simp [Shape.Body]
  | indexed => exact recognises_skipInteger
  | wrapper => exact recognises
  | modifier =>
    refine (recognises_skipInteger.bind fun _ => recognises).congr fun _ bytes => ?_
    simp [Shape.Body]
  | array =>
    refine (recognises.bind fun _ => recognises_skipInteger.bind fun _ =>
      (recognises_counted recognises_skipInteger).bind fun _ =>
        recognises_counted recognises_skipInteger).congr fun _ bytes => ?_
    simp only [Shape.Body, exists_const]
    grind
  | instantiation =>
    refine (Recognises.next fun _ => recognises_skipInteger.bind fun _ =>
      recognises_counted recognises).congr fun _ bytes => ?_
    simp only [Shape.Body, exists_const]
    grind
  | function =>
    -- the parameters and the result are one run of types, hence the successor
    have rest := recognises_readCompressed.bind fun parameters =>
      recognises_times recognises (parameters + 1)
    refine (Recognises.next fun convention =>
      .ite (recognises_skipInteger.bind fun _ => rest) rest).congr fun _ bytes => ?_
    simp only [Shape.Body, exists_const]
    constructor
    · rintro ⟨convention, body, rfl, there⟩
      split at there
      next generic =>
        obtain ⟨generics, _, integer, ⟨parameters, count, types, counted, each, rfl⟩, rfl⟩ := there
        exact ⟨convention, generics, count, types, parameters, by simpa [generic] using integer,
          counted, each, rfl⟩
      next plain =>
        obtain ⟨parameters, count, types, counted, each, rfl⟩ := there
        exact ⟨convention, [], count, types, parameters, by simp [plain], counted, each, rfl⟩
    · rintro ⟨convention, generics, count, types, parameters, generic, counted, each, rfl⟩
      refine ⟨convention, _, rfl, ?_⟩
      split at generic
      next announced =>
        rw [if_pos announced]
        exact ⟨generics, _, generic, ⟨parameters, count, types, counted, each, rfl⟩, rfl⟩
      next plain =>
        rw [if_neg plain, generic]
        exact ⟨parameters, count, types, counted, each, rfl⟩

/-- The walk recognises the encodings that have no more levels than it allows. -/
theorem recognises_skipWithin (levels : Nat) :
    Recognises (skipWithin (ρ := ρ) levels) fun _ => TypeWithin levels := by
  induction levels with
  | zero => exact (recognises_throw _).congr fun _ bytes => by simp [TypeWithin]
  | succ levels ih =>
    let shaped (tag : UInt8) (_ : Unit) (body : Bytes) : Prop :=
      ∃ shape, Shape.ofTag? tag = some shape ∧ shape.Body (TypeWithin levels) body
    rw [skipWithin]
    refine (@Recognises.next ρ Unit _ _ shaped fun tag => ?_).congr fun _ bytes => ?_
    · dsimp only [shaped]
      cases Shape.ofTag? tag with
      | some shape => exact (recognises_skipShape ih shape).congr fun _ body => by simp
      | none => exact (recognises_throw _).congr fun _ body => by simp
    · rw [typeWithin_succ_iff]
      grind

/-- The bound on nesting in terms of the depth of an encoding. -/
theorem typeWithin_iff {bytes : Bytes} :
    TypeWithin (maxNesting + 1) bytes ↔ ∃ depth ≤ 64, TypeEncoding bytes depth := by
  simp only [TypeWithin, Nat.lt_succ_iff, maxNesting]

/-- The walk succeeds just where an encoding within the bound stands, and stops right behind it. -/
theorem skipType_eq_ok_iff {source last : ρ} :
    skipType source = .ok () last ↔
      ∃ bytes, TypeWithin (maxNesting + 1) bytes ∧ Passes source bytes last :=
  recognises_skipWithin (maxNesting + 1) source () last

end

/-! ## Front parts -/

/-- No encoding is a proper front part of another, since both end where the walk does. -/
theorem TypeEncoding.eq_of_append_eq {front front' back back' : Bytes} {depth depth' : Nat}
    (one : TypeEncoding front depth) (other : TypeEncoding front' depth')
    (same : front ++ back = front' ++ back') : front = front' := by
  have walked (rest : Bytes) {part : Bytes} {below : Nat} (encoding : TypeEncoding part below)
      (enough : below < max depth depth' + 1) :
      ∃ last, skipWithin (max depth depth' + 1) (Cursor.ofBytes (part ++ rest)) = .ok () last ∧
        last.position = part.length := by
    obtain ⟨last, passes, -, position⟩ := exists_passes_ofBytes part rest
    exact ⟨last, (recognises_skipWithin _ _ _ _).mpr ⟨part, ⟨below, enough, encoding⟩, passes⟩,
      position⟩
  obtain ⟨last, here, position⟩ := walked back one (by omega)
  obtain ⟨last', there, position'⟩ := walked back' other (by omega)
  rw [← same, here] at there
  cases there
  exact List.append_inj_left same (position.symm.trans position')

/-- The walk over a type at the start of `data` passes over `count` bytes. -/
def WalksOver (data : Bytes) (count : Nat) : Prop :=
  ∃ cursor, skipType (Cursor.ofBytes data) = .ok () cursor ∧ cursor.position = count

/-- Walking over so many bytes is having an encoding of them in front. -/
private theorem walksOver_iff_take {data : Bytes} {count : Nat} :
    WalksOver data count ↔
      count ≤ data.length ∧ TypeWithin (maxNesting + 1) (data.take count) := by
  constructor
  · rintro ⟨cursor, walked, rfl⟩
    obtain ⟨bytes, encoding, passes⟩ := skipType_eq_ok_iff.mp walked
    obtain ⟨ahead, -, position⟩ := passes_cursor_iff.mp passes
    have data_eq : data = bytes ++ cursor.ahead := ahead
    have count_eq : cursor.position = bytes.length := position.trans (Nat.zero_add _)
    rw [count_eq, data_eq]
    exact ⟨by simp, by simpa using encoding⟩
  · rintro ⟨inside, encoding⟩
    obtain ⟨last, passes, -, position⟩ :=
      exists_passes_ofBytes (data.take count) (data.drop count)
    rw [List.take_append_drop] at passes
    exact ⟨last, skipType_eq_ok_iff.mpr ⟨_, encoding, passes⟩, by simp [position, inside]⟩

/-- The walk passes over a front part of a string exactly when the part is a type encoding with no
type more than 64 levels below its root. No other front part is an encoding, and what follows the
part makes no difference. -/
theorem walksOver_iff (data : Bytes) (count : Nat) :
    (WalksOver data count ↔ count ≤ data.length ∧
      ∃ depth ≤ 64, TypeEncoding (data.take count) depth) ∧
    (WalksOver data count →
      (∀ other ≤ data.length, (∃ depth, TypeEncoding (data.take other) depth) → other = count) ∧
      ∀ rest, WalksOver (data.take count ++ rest) count) := by
  refine ⟨by rw [walksOver_iff_take, typeWithin_iff], fun walked => ?_⟩
  obtain ⟨inside, within⟩ := walksOver_iff_take.mp walked
  constructor
  · rintro other inside' ⟨depth', encoding'⟩
    obtain ⟨depth, -, encoding⟩ := within
    have whole : data.take other ++ data.drop other = data.take count ++ data.drop count := by
      rw [List.take_append_drop, List.take_append_drop]
    have same := encoding'.eq_of_append_eq encoding whole
    simpa [inside, inside'] using congrArg List.length same
  · intro rest
    have front : (data.take count ++ rest).take count = data.take count := by
      rw [List.take_append_of_le_length (by simp [inside]), List.take_take, Nat.min_self]
    rw [walksOver_iff_take, front]
    refine ⟨?_, within⟩
    rw [List.length_append, List.length_take, Nat.min_eq_left inside]
    exact Nat.le_add_right _ _

/-- A pointer to a generic function that takes an integer and returns a generic class, and a byte
more. -/
def functionPointer : Bytes :=
  [0x1B, 0x10, 0x01, 0x01, 0x15, 0x12, 0x81, 0x02, 0x01, 0x1E, 0x00, 0x08, 0xFF]

/-- The last byte is not part of the pointer, no other prefix is an encoding, and what follows makes
no difference. -/
theorem walksOver_iff_functionPointer : WalksOver functionPointer 12 ∧
    (∃ depth ≤ 64, TypeEncoding (functionPointer.take 12) depth) ∧
    (∀ other ≤ 13, (∃ depth, TypeEncoding (functionPointer.take other) depth) → other = 12) ∧
    ∀ rest, WalksOver (functionPointer.take 12 ++ rest) 12 := by
  have single : Spells 1 [0x01] := @Spells.one 0x01 (by decide)
  have variable_ : TypeEncoding [0x1E, 0x00] 0 := .indexed (by decide) ⟨_, .one (by decide)⟩
  have class_ : TypeEncoding [0x15, 0x12, 0x81, 0x02, 0x01, 0x1E, 0x00] 1 :=
    @TypeEncoding.instantiation 0x12 [0x81, 0x02] [0x01] [([0x1E, 0x00], 0)]
      ⟨_, .two (by decide)⟩ single (by simpa using variable_)
  have integer : TypeEncoding [0x08] 0 := .primitive (by decide)
  have pointer : TypeEncoding (functionPointer.take 12) 2 :=
    @TypeEncoding.function 0x10 [0x01] [0x01] 1
      [([0x15, 0x12, 0x81, 0x02, 0x01, 0x1E, 0x00], 1), ([0x08], 0)]
      ⟨_, single⟩ single rfl (by simpa using ⟨class_, integer⟩)
  obtain ⟨walked_iff, only⟩ := walksOver_iff functionPointer 12
  have walked := walked_iff.mpr ⟨by decide, 2, by decide, pointer⟩
  exact ⟨walked, ⟨2, by decide, pointer⟩, only walked⟩

end CilCapture.Signature
