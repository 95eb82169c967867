import CilCapture.Proofs.Signature.Reading
import CilCapture.Signature.TypeWalk

/-!
# Readers that agree

A cursor over a byte string, native memory that starts with it, and a recording of either show the
same bytes at the same places (`Shows`), and nothing that reads type encodings and integers can tell
them apart: it comes to the same value or the same fault and has read as far (`Mirrors`). Sources
that show a string mirror each other because their single bytes do.

A cursor puts integers together from bits, the others by arithmetic; the two ways are one
(`Cursor.integer_eq`). So all readers agree, call after call and whichever calls fail, and what is
copied is what was read (`readers_agree`).

Nothing is said about why a reader fails, only that both do so alike. The steps are compared in
related states, and a relation has to be kept in failure too, since a reader that has failed may be
called again (`Shows.transcript_eq`).

Copying is reading with everything noted, so the copy of a type that cannot be read is what was read
until then. That is shown for every reader at once, with whatever was recorded before in front
(`CopiesPassed`).
-/

namespace CilCapture

/-! ## Integers from bits -/

/-- The bits of a number from a place on. -/
theorem and_shiftedMask {number places width : Nat} (small : number < 1 <<< (places + width)) :
    number &&& (1 <<< width - 1) <<< places = number >>> places <<< places := by
  rw [Nat.one_shiftLeft] at *
  refine Nat.eq_of_testBit_eq fun place => ?_
  have beyond : places + width ≤ place → number.testBit place = false := fun le =>
    Nat.testBit_lt_two_pow (Nat.lt_of_lt_of_le small (Nat.pow_le_pow_right (by omega) le))
  rw [Nat.testBit_and, Nat.testBit_shiftLeft, Nat.testBit_shiftLeft, Nat.testBit_shiftRight,
    Nat.testBit_two_pow_sub_one]
  by_cases from_places : places ≤ place
  · have place_eq : places + (place - places) = place := by omega
    by_cases within : place - places < width
    · simp [from_places, within, place_eq]
    · simp [from_places, within, place_eq, beyond (by omega)]
  · simp [from_places]

/-- How the leading bits of a byte are tested, and the numbers that pass. -/
theorem lead_bits (lead : UInt8) :
    (lead &&& 0x80 = 0 ↔ lead.toNat < 0x80) ∧
      (lead &&& 0xC0 = 0x80 ↔ 0x80 ≤ lead.toNat ∧ lead.toNat < 0xC0) ∧
      (lead &&& 0xE0 = 0xC0 ↔ 0xC0 ≤ lead.toNat ∧ lead.toNat < 0xE0) := by
  have lead_lt := lead.toNat_lt
  have one : lead.toNat &&& 0x80 = lead.toNat >>> 7 <<< 7 := @and_shiftedMask _ 7 1 lead_lt
  have two : lead.toNat &&& 0xC0 = lead.toNat >>> 6 <<< 6 := @and_shiftedMask _ 6 2 lead_lt
  have three : lead.toNat &&& 0xE0 = lead.toNat >>> 5 <<< 5 := @and_shiftedMask _ 5 3 lead_lt
  simp only [← UInt8.toNat_inj, UInt8.toNat_and, UInt8.reduceToNat]
  rw [one, two, three]
  omega

/-- Shifting a word that has the room multiplies its number. -/
theorem toNat_shiftLeft_of_lt {word places : UInt32} {factor : Nat} (few : places.toNat < 32)
    (factor_eq : 1 <<< places.toNat = factor) (fits : word.toNat * factor < 0x100000000) :
    (word <<< places).toNat = word.toNat * factor := by
  rw [UInt32.toNat_shiftLeft, Nat.mod_eq_of_lt few, Nat.shiftLeft_eq, ← Nat.one_shiftLeft,
    factor_eq]
  exact Nat.mod_eq_of_lt fits

/-- Bits beside one another are added. -/
theorem or_eq_add (width unit : Nat) {high low : Nat} (unit_eq : 1 <<< width = unit)
    (aligned : unit ∣ high) (small : low < unit) : high ||| low = high + low := by
  rw [← unit_eq, Nat.one_shiftLeft] at aligned small
  obtain ⟨quotient, rfl⟩ := aligned
  exact (Nat.two_pow_add_eq_or_of_lt small quotient).symm

/-- The bits of two bytes, as the number that they spell. -/
theorem toNat_twoBytes (lead low : UInt8) :
    ((lead.toUInt32 &&& 0x3F) <<< 8 ||| low.toUInt32).toNat =
      lead.toNat % 0x40 * 256 + low.toNat := by
  have low_lt := low.toNat_lt
  have lead_eq : (lead.toUInt32 &&& 0x3F).toNat = lead.toNat % 0x40 := by
    rw [UInt32.toNat_and, UInt8.toNat_toUInt32]
    exact Nat.and_two_pow_sub_one_eq_mod _ 6
  have first : ((lead.toUInt32 &&& 0x3F) <<< 8).toNat = lead.toNat % 0x40 * 256 := by
    rw [← lead_eq]
    exact toNat_shiftLeft_of_lt (by decide) rfl (by omega)
  rw [UInt32.toNat_or, first, UInt8.toNat_toUInt32, or_eq_add 8 0x100 rfl (by omega) (by omega)]

/-- The bits of four bytes, as the number that they spell. -/
theorem toNat_fourBytes (lead high middle low : UInt8) :
    ((lead.toUInt32 &&& 0x1F) <<< 24 ||| high.toUInt32 <<< 16 ||| middle.toUInt32 <<< 8 |||
      low.toUInt32).toNat =
      ((lead.toNat % 0x20 * 256 + high.toNat) * 256 + middle.toNat) * 256 + low.toNat := by
  have high_lt := high.toNat_lt
  have middle_lt := middle.toNat_lt
  have low_lt := low.toNat_lt
  have lead_eq : (lead.toUInt32 &&& 0x1F).toNat = lead.toNat % 0x20 := by
    rw [UInt32.toNat_and, UInt8.toNat_toUInt32]
    exact Nat.and_two_pow_sub_one_eq_mod _ 5
  have first : ((lead.toUInt32 &&& 0x1F) <<< 24).toNat = lead.toNat % 0x20 * 0x1000000 := by
    rw [← lead_eq]
    exact toNat_shiftLeft_of_lt (by decide) rfl (by omega)
  have second : (high.toUInt32 <<< 16).toNat = high.toNat * 0x10000 :=
    toNat_shiftLeft_of_lt (by decide) rfl (by rw [UInt8.toNat_toUInt32]; omega)
  have third : (middle.toUInt32 <<< 8).toNat = middle.toNat * 0x100 :=
    toNat_shiftLeft_of_lt (by decide) rfl (by rw [UInt8.toNat_toUInt32]; omega)
  have upper : ((lead.toUInt32 &&& 0x1F) <<< 24 ||| high.toUInt32 <<< 16).toNat =
      lead.toNat % 0x20 * 0x1000000 + high.toNat * 0x10000 := by
    rw [UInt32.toNat_or, first, second, or_eq_add 24 0x1000000 rfl (by omega) (by omega)]
  have above : ((lead.toUInt32 &&& 0x1F) <<< 24 ||| high.toUInt32 <<< 16 |||
      middle.toUInt32 <<< 8).toNat =
      lead.toNat % 0x20 * 0x1000000 + high.toNat * 0x10000 + middle.toNat * 0x100 := by
    rw [UInt32.toNat_or, upper, third, or_eq_add 16 0x10000 rfl (by omega) (by omega)]
  rw [UInt32.toNat_or, above, UInt8.toNat_toUInt32, or_eq_add 8 0x100 rfl (by omega) (by omega)]
  omega

/-- The next compressed integer of any source, put together from the bits of its bytes as a cursor
does it. -/
def Signature.readBits {ρ : Type} [ByteSource ρ] : EStateM Fault ρ Nat := do
  let lead ← ByteSource.next (ρ := ρ)
  if lead &&& 0x80 = 0 then return lead.toNat
  else if lead &&& 0xC0 = 0x80 then
    let low ← ByteSource.next (ρ := ρ)
    return ((lead.toUInt32 &&& 0x3F) <<< 8 ||| low.toUInt32).toNat
  else if lead &&& 0xE0 = 0xC0 then
    let high ← ByteSource.next (ρ := ρ)
    let middle ← ByteSource.next (ρ := ρ)
    let low ← ByteSource.next (ρ := ρ)
    return ((lead.toUInt32 &&& 0x1F) <<< 24 ||| high.toUInt32 <<< 16 ||| middle.toUInt32 <<< 8 |||
      low.toUInt32).toNat
  else throw (.malformed (.compressedLead lead))

/-- Put together from bits, an integer is the one that its spelling says. -/
theorem Signature.readBits_eq {ρ : Type} [ByteSource ρ] :
    readBits (ρ := ρ) = readCompressed := by
  unfold readBits readCompressed
  refine congrArg (ByteSource.next >>= ·) (funext fun lead => ?_)
  obtain ⟨one, two, four⟩ := lead_bits lead
  simp only [one]
  split
  next => rfl
  next high =>
    have two := two.trans (and_iff_right (Nat.le_of_not_lt high))
    simp only [two]
    split
    next => simp only [toNat_twoBytes]
    next above =>
      have four := four.trans (and_iff_right (Nat.le_of_not_lt above))
      simp only [four, toNat_fourBytes, UInt8.ofNat_toNat]

/-- A cursor's own way to read integers comes to the same as the one for any source, with the same
faults at the same places. -/
theorem Cursor.integer_eq : Cursor.integer = Signature.readCompressed (ρ := Cursor) :=
  Signature.readBits_eq

namespace Signature

/-! ## Integers read as ever -/

namespace Reader

variable {ρ : Type} [Reader ρ]

/-- A reader whose integers are as ever passes over what follows a tag as any source does. -/
theorem passShape_eq (as_ever : integer (ρ := ρ) = readCompressed)
    (nested : EStateM Fault ρ Unit) (shape : Shape) :
    passShape nested shape = skipShape nested shape := by
  cases shape <;>
    simp only [passShape, passCounted, passInteger, skipShape, counted, skipInteger, as_ever]

/-- A reader whose integers are as ever passes over a type of so many levels as any source does. -/
theorem passWithin_eq (as_ever : integer (ρ := ρ) = readCompressed) (levels : Nat) :
    passWithin (ρ := ρ) levels = skipWithin levels := by
  induction levels with
  | zero => rfl
  | succ levels ih =>
    rw [passWithin, skipWithin, ih]
    refine congrArg (ByteSource.next >>= ·) (funext fun tag => ?_)
    cases Shape.ofTag? tag with
    | some shape => exact passShape_eq as_ever _ shape
    | none => rfl

/-- A reader whose integers are as ever passes over a type as any source does. -/
theorem passType_eq (as_ever : integer (ρ := ρ) = readCompressed) :
    passType (ρ := ρ) = skipType :=
  passWithin_eq as_ever _

/-! ## Walks with something around their parts -/

/-- What follows a tag of each shape, with something around every repetition of a counted step. -/
def shapeAround (turn : EStateM Fault ρ Unit → EStateM Fault ρ Unit)
    (nested : EStateM Fault ρ Unit) : Shape → EStateM Fault ρ Unit
  | .primitive => pure ()
  | .indexed => passInteger
  | .wrapper => nested
  | .modifier => do
    passInteger
    nested
  | .array => do
    nested
    passInteger
    passCounted (turn passInteger)
    passCounted (turn passInteger)
  | .instantiation => do
    let _ ← ByteSource.next (ρ := ρ)
    passInteger
    passCounted (turn nested)
  | .function => do
    let convention ← ByteSource.next (ρ := ρ)
    if isGenericConvention convention then passInteger
    let parameters ← integer
    times (parameters + 1) (turn nested)

/-- The walk over a type of so many levels, with something around every repetition of a counted step
and around the walk over every single type. -/
def walkAround (turn call : EStateM Fault ρ Unit → EStateM Fault ρ Unit) :
    (levels : Nat) → EStateM Fault ρ Unit
  | 0 => call (throw (.malformed (.typeTooDeep maxNesting)))
  | levels + 1 => call do
    let tag ← ByteSource.next (ρ := ρ)
    match Shape.ofTag? tag with
    | some shape => shapeAround turn (walkAround turn call levels) shape
    | none => throw (.malformed (.unknownElement tag))

/-- With nothing around its parts it is the walk. -/
theorem walkAround_id (levels : Nat) : walkAround (ρ := ρ) id id levels = passWithin levels := by
  induction levels with
  | zero => rfl
  | succ levels ih =>
    rw [walkAround, passWithin, ih]
    refine congrArg (ByteSource.next >>= ·) (funext fun tag => ?_)
    cases Shape.ofTag? tag with
    | some shape => cases shape <;> rfl
    | none => rfl

end Reader

/-! ## Side by side -/

section

variable {ρ σ ε α β : Type} {R : ρ → σ → Prop}

/-- Two steps from related states come to the same, in related states. -/
def Mirrors (R : ρ → σ → Prop) (step : EStateM ε ρ α) (twin : EStateM ε σ α) : Prop :=
  ∀ ⦃source other⦄, R source other →
    resultOf (step source) = resultOf (twin other) ∧
      R (finalState (step source)) (finalState (twin other))

namespace Mirrors

/-- A step that does nothing mirrors itself. -/
theorem pure (value : α) :
    Mirrors R (pure value : EStateM ε ρ α) (pure value : EStateM ε σ α) :=
  fun _ _ related => ⟨rfl, related⟩

/-- A step that only fails mirrors itself. -/
theorem throw (failure : ε) :
    Mirrors R (throw failure : EStateM ε ρ α) (throw failure : EStateM ε σ α) :=
  fun _ _ related => ⟨rfl, related⟩

/-- Either both steps succeed, with the same value, or both fail, the same way. -/
theorem ends {step : EStateM ε ρ α} {twin : EStateM ε σ α} (mirrors : Mirrors R step twin)
    {source : ρ} {other : σ} (related : R source other) :
    (∃ value after after', step source = .ok value after ∧ twin other = .ok value after' ∧
        R after after') ∨
      ∃ failure after after', step source = .error failure after ∧
        twin other = .error failure after' ∧ R after after' := by
  obtain ⟨same, there⟩ := mirrors related
  cases taken : step source <;> cases taken' : twin other <;> rw [taken, taken'] at same there <;>
    cases same
  next value after after' => exact .inl ⟨value, after, after', rfl, rfl, there⟩
  next failure after after' => exact .inr ⟨failure, after, after', rfl, rfl, there⟩

/-- Related steps tell their failures in other words. -/
theorem adapt {ε' : Type} {step : EStateM ε ρ α} {twin : EStateM ε σ α}
    (mirrors : Mirrors R step twin) (tell : ε → ε') :
    Mirrors R (EStateM.adaptExcept tell step) (EStateM.adaptExcept tell twin) := by
  intro source other related
  unfold EStateM.adaptExcept
  rcases mirrors.ends related with ⟨value, after, after', taken, taken', there⟩ |
    ⟨failure, after, after', taken, taken', there⟩ <;> rw [taken, taken']
  · exact ⟨rfl, there⟩
  · exact ⟨rfl, there⟩

/-- Steps mirror each other in sequence: since both come to the same, both go on with the same value
or stop. -/
theorem bind {step : EStateM ε ρ α} {twin : EStateM ε σ α} {next : α → EStateM ε ρ β}
    {next' : α → EStateM ε σ β} (first : Mirrors R step twin)
    (second : ∀ value, Mirrors R (next value) (next' value)) :
    Mirrors R (step >>= next) (twin >>= next') := by
  intro source other related
  rcases first.ends related with ⟨value, middle, middle', taken, taken', there⟩ |
    ⟨failure, middle, middle', taken, taken', there⟩
  · rw [run_bind_of_ok taken, run_bind_of_ok taken']
    exact second value there
  · rw [run_bind_of_error taken, run_bind_of_error taken']
    exact ⟨rfl, there⟩

/-- A choice by a condition that both sides share is mirrored if either part is. -/
theorem ite {condition : Prop} [Decidable condition] {yes no : EStateM ε ρ α}
    {yes' no' : EStateM ε σ α} (one : Mirrors R yes yes') (other : Mirrors R no no') :
    Mirrors R (if condition then yes else no) (if condition then yes' else no') := by
  split
  next => exact one
  next => exact other

/-- Repetitions are mirrored if the step is. -/
theorem times {step : EStateM Fault ρ Unit} {twin : EStateM Fault σ Unit}
    (mirrors : Mirrors R step twin) (count : Nat) :
    Mirrors R (times count step) (times count twin) := by
  induction count with
  | zero => exact .pure ()
  | succ count ih => exact mirrors.bind fun _ => ih

end Mirrors

variable [ByteSource ρ] [ByteSource σ]

/-- Integers are read alike where bytes are. -/
theorem mirrors_readCompressed (mirrors : Mirrors R ByteSource.next ByteSource.next) :
    Mirrors R readCompressed readCompressed :=
  mirrors.bind fun _ => .ite (.pure _) <|
    .ite (mirrors.bind fun _ => .pure _) <|
      .ite (mirrors.bind fun _ => mirrors.bind fun _ => mirrors.bind fun _ => .pure _) (.throw _)

/-- Walks mirror each other when their single bytes, their integers and what is around their parts
do. -/
theorem mirrors_walkAround {ρ σ : Type} {R : ρ → σ → Prop} [Reader ρ] [Reader σ]
    (next : Mirrors R ByteSource.next ByteSource.next)
    (integer : Mirrors R Reader.integer Reader.integer)
    {turn call : EStateM Fault ρ Unit → EStateM Fault ρ Unit}
    {turn' call' : EStateM Fault σ Unit → EStateM Fault σ Unit}
    (turns : ∀ {step twin}, Mirrors R step twin → Mirrors R (turn step) (turn' twin))
    (calls : ∀ {step twin}, Mirrors R step twin → Mirrors R (call step) (call' twin))
    (levels : Nat) :
    Mirrors R (Reader.walkAround turn call levels) (Reader.walkAround turn' call' levels) := by
  have pass : Mirrors R Reader.passInteger Reader.passInteger := integer.bind fun _ => .pure ()
  have counted {step : EStateM Fault ρ Unit} {twin : EStateM Fault σ Unit}
      (inner : Mirrors R step twin) :
      Mirrors R (Reader.passCounted (turn step)) (Reader.passCounted (turn' twin)) :=
    integer.bind fun count => (turns inner).times count
  induction levels with
  | zero => exact calls (.throw _)
  | succ levels ih =>
    refine calls (next.bind fun tag => ?_)
    cases Shape.ofTag? tag with
    | none => exact .throw _
    | some shape =>
      cases shape with
      | primitive => exact .pure ()
      | indexed => exact pass
      | wrapper => exact ih
      | modifier => exact pass.bind fun _ => ih
      | array =>
        exact ih.bind fun _ => pass.bind fun _ => (counted pass).bind fun _ => counted pass
      | instantiation => exact next.bind fun _ => pass.bind fun _ => counted ih
      | function =>
        have rest := integer.bind fun parameters => (turns ih).times (parameters + 1)
        exact next.bind fun _ => .ite (pass.bind fun _ => rest) rest

/-- Types are passed over alike where bytes are read alike, and so fail alike. -/
theorem mirrors_skipWithin (mirrors : Mirrors R ByteSource.next ByteSource.next) (levels : Nat) :
    Mirrors R (skipWithin levels) (skipWithin levels) := by
  let _ : Reader ρ := {}
  let _ : Reader σ := {}
  have walks : Mirrors R (Reader.walkAround id id levels) (Reader.walkAround id id levels) :=
    mirrors_walkAround mirrors (mirrors_readCompressed mirrors) (fun step => step)
      (fun step => step) levels
  rwa [Reader.walkAround_id, Reader.walkAround_id, Reader.passWithin_eq rfl,
    Reader.passWithin_eq rfl] at walks

/-- Types are passed over alike, with the greatest number of levels. -/
theorem mirrors_skipType (mirrors : Mirrors R ByteSource.next ByteSource.next) :
    Mirrors R skipType skipType :=
  mirrors_skipWithin mirrors _

end

/-! ## Showing a string -/

/-- What is between two places of a string. -/
def between (data : Bytes) (start stop : Nat) : Bytes := (data.drop start).take (stop - start)

theorem between_self (data : Bytes) (place : Nat) : between data place place = [] := by
  rw [between, Nat.sub_self, List.take_zero]

/-- A byte further, a slice has one byte more. -/
theorem between_succ {data : Bytes} {start stop : Nat} (forward : start ≤ stop)
    (inside : stop < data.length) :
    between data start (stop + 1) = between data start stop ++ [data[stop]] := by
  have here : stop - start < (data.drop start).length := by
    rw [List.length_drop]
    omega
  have last : (data.drop start)[stop - start] = data[stop] := by
    rw [List.getElem_drop]
    congr 1
    omega
  rw [between, Nat.sub_add_comm forward, List.take_succ_eq_append_getElem here, last, between]

/-- A source that is at a place of a string hands out the byte there and is behind it; at the end it
fails and stays. The sources meant are the possible ones. -/
structure Shows {ρ : Type} [ByteSource ρ] (data : Bytes) (place : ρ → Nat) (possible : ρ → Prop) :
    Prop where
  place_le : ∀ {source}, possible source → place source ≤ data.length
  ended : ∀ {source}, possible source → place source = data.length →
    ByteSource.next source = .error .outOfBounds source
  reads : ∀ {source}, possible source → ∀ inside : place source < data.length, ∃ after,
    ByteSource.next source = .ok data[place source] after ∧ possible after ∧
      place after = place source + 1

/-- A cursor shows the string that it is on. -/
theorem shows_cursor (data : Bytes) :
    Shows data Cursor.position fun cursor => cursor.data = data where
  place_le := by
    rintro cursor rfl
    exact cursor.position_le
  ended := by
    rintro cursor rfl ended
    have ahead : cursor.ahead = [] := by
      rw [cursor.ahead_eq, ended, List.drop_length]
    show Cursor.next cursor = _
    unfold Cursor.next
    split
    next byte rest more => cases ahead.symm.trans more
    next => rfl
  reads := by
    rintro cursor rfl inside
    have ahead : cursor.ahead = [cursor.data[cursor.position]] ++
        cursor.data.drop (cursor.position + 1) := by
      rw [cursor.ahead_eq, List.drop_eq_getElem_cons inside]
      rfl
    obtain ⟨after, passes, -, position⟩ := exists_passes ahead
    obtain ⟨middle, next, rest⟩ := passes_cons_iff.mp passes
    cases rest
    exact ⟨after, next, (next_cursor_eq_ok_iff.mp next).2.1, position⟩

/-- Native memory that starts with a string, read no further than the string. -/
structure RawSource.Holds (data beyond : Bytes) (source : RawSource) : Prop where
  limit_eq : source.limit = data.length
  consumed_le : source.consumed ≤ data.length
  rest_eq : source.rest = some (data.drop source.consumed ++ beyond)

/-- Native memory shows the string that it starts with, and nothing behind the bound. -/
theorem shows_raw (data beyond : Bytes) :
    Shows data RawSource.consumed (RawSource.Holds data beyond) where
  place_le holds := holds.consumed_le
  ended := by
    intro source holds ended
    exact if_pos (Nat.le_of_eq (holds.limit_eq.trans ended.symm))
  reads := by
    intro source holds inside
    have before : ¬ source.limit ≤ source.consumed := by
      rw [holds.limit_eq]
      omega
    have rest_eq : source.rest =
        some (data[source.consumed] :: (data.drop (source.consumed + 1) ++ beyond)) := by
      rw [holds.rest_eq, List.drop_eq_getElem_cons inside]
      rfl
    refine ⟨{ source with
      rest := some (data.drop (source.consumed + 1) ++ beyond)
      consumed := source.consumed + 1 }, ?_, ⟨holds.limit_eq, inside, rfl⟩, rfl⟩
    show RawSource.next source = _
    rw [RawSource.next, if_neg before, rest_eq]

namespace Shows

variable {ρ σ : Type} [ByteSource ρ] [ByteSource σ] {data : Bytes}
variable {place : ρ → Nat} {possible : ρ → Prop} {place' : σ → Nat} {possible' : σ → Prop}

/-- Sources at the same place of the same string. -/
structure Level (place : ρ → Nat) (possible : ρ → Prop) (place' : σ → Nat) (possible' : σ → Prop)
    (source : ρ) (other : σ) : Prop where
  here : possible source
  there : possible' other
  same : place source = place' other

/-- Sources at the same place of a string read alike and are level afterwards. -/
theorem mirrors_next (one : Shows data place possible) (two : Shows data place' possible') :
    Mirrors (Level place possible place' possible') ByteSource.next ByteSource.next := by
  intro source other level
  rcases Nat.lt_or_eq_of_le (one.place_le level.here) with inside | ended
  · obtain ⟨after, next, here, place_eq⟩ := one.reads level.here inside
    obtain ⟨after', next', there, place_eq'⟩ := two.reads level.there (level.same ▸ inside)
    rw [next, next']
    refine ⟨?_, here, there, by rw [finalState, finalState, place_eq, place_eq', level.same]⟩
    simp only [resultOf, level.same]
  · rw [one.ended level.here ended, two.ended level.there (level.same ▸ ended)]
    exact ⟨rfl, level⟩

/-- A recording beside its source: noted is what was read since a place, and what was noted before
that. -/
structure Noted (data : Bytes) (place : ρ → Nat) (possible : ρ → Prop) (start : Nat)
    (before : List UInt8) (recording : Recording ρ) (source : ρ) : Prop where
  here : possible source
  source_eq : recording.source = source
  start_le : start ≤ place source
  noted_eq : recording.noted = (between data start (place source)).reverse ++ before

/-- A recording reads like its source and notes what that moves over. -/
theorem mirrors_recording (shows : Shows data place possible) (start : Nat)
    (before : List UInt8) :
    Mirrors (Noted data place possible start before) ByteSource.next ByteSource.next := by
  intro recording source
  rintro ⟨here, rfl, start_le, noted_eq⟩
  show resultOf (Recording.next _) = _ ∧ Noted _ _ _ _ _ (finalState (Recording.next _)) _
  rw [Recording.next]
  rcases Nat.lt_or_eq_of_le (shows.place_le here) with inside | ended
  · obtain ⟨after, next, there, place_eq⟩ := shows.reads here inside
    rw [next]
    refine ⟨rfl, there, rfl, ?_, ?_⟩
    · rw [finalState, place_eq]
      exact Nat.le_succ_of_le start_le
    · rw [finalState, finalState, place_eq, between_succ start_le inside, List.reverse_append,
        noted_eq]
      rfl
  · rw [shows.ended here ended]
    exact ⟨rfl, here, rfl, start_le, noted_eq⟩

/-- A walk over a type that is recorded comes to the same as without, in the same place, and puts
what it reads on top of what was noted. -/
theorem skipType_recording (shows : Shows data place possible) {source final : ρ}
    (here : possible source) (final_eq : finalState (skipType source) = final)
    (noted : List UInt8) :
    possible final ∧ place source ≤ place final ∧
      skipType (ρ := Recording ρ) ⟨source, noted⟩ =
        resultIn ⟨final, (between data (place source) (place final)).reverse ++ noted⟩
          (resultOf (skipType source)) := by
  have start : Noted data place possible (place source) noted ⟨source, noted⟩ source :=
    ⟨here, rfl, Nat.le_refl _, by rw [between_self]; rfl⟩
  obtain ⟨same, there⟩ := mirrors_skipType (shows.mirrors_recording (place source) noted) start
  rw [final_eq] at there
  refine ⟨there.here, there.start_le, ?_⟩
  rw [eq_resultIn same, ← there.noted_eq, ← there.source_eq]

end Shows

/-! ## Calls -/

/-- What can be asked of a reader: to pass over a type, to copy one, to read an integer. -/
inductive Call where
  | skip
  | copy
  | integer
  deriving DecidableEq, Repr

/-- What comes back from a call. -/
inductive Reply where
  | skipped (result : Except Fault Unit)
  | copied (result : Except Fault Unit) (bytes : Bytes)
  | integer (result : Except Fault Nat)
  deriving DecidableEq

section

variable {ρ : Type} [Reader ρ]

/-- The reply to a call, and the reader after it, whether it failed or not. -/
def Call.run (call : Call) (source : ρ) : Reply × ρ :=
  match call with
  | .skip =>
    let ended := Reader.passType source
    (.skipped (resultOf ended), finalState ended)
  | .copy =>
    let (ended, bytes) := copyType source
    (.copied (resultOf ended) bytes, finalState ended)
  | .integer =>
    let ended := Reader.integer source
    (.integer (resultOf ended), finalState ended)

/-- The replies to calls, each with the place that the reader is at after it. -/
def transcript (place : ρ → Nat) : (calls : List Call) → ρ → List (Reply × Nat)
  | [], _ => []
  | call :: calls, source =>
    ((call.run source).1, place (call.run source).2) :: transcript place calls (call.run source).2

/-- The reader after calls. -/
def afterCalls (calls : List Call) (source : ρ) : ρ :=
  calls.foldl (fun source call => (call.run source).2) source

/-- Copying is passing over a type, and appends exactly what the reader moves over in doing so,
whatever it comes to and whatever was recorded before. -/
structure CopiesPassed (data : Bytes) (place : ρ → Nat) (source : ρ) : Prop where
  same : (copyType source).1 = Reader.passType source
  forward : place source ≤ place (finalState (Reader.passType source))
  inside : place (finalState (Reader.passType source)) ≤ data.length
  bytes : (copyType source).2 =
    between data (place source) (place (finalState (Reader.passType source)))
  appended : ∀ out : Bytes, skipType (ρ := Recording ρ) ⟨source, out.reverse⟩ =
    resultIn ⟨finalState (Reader.passType source), (out ++ (copyType source).2).reverse⟩
      (resultOf (Reader.passType source))

end

/-- Copying is a walk of a recording: its outcome on the source, and what was noted, turned around.
-/
theorem copyType_of_recording {ρ : Type} [ByteSource ρ] {source final : ρ} {noted : List UInt8}
    {result : Except Fault Unit}
    (walked : skipType (ρ := Recording ρ) ⟨source, []⟩ = resultIn ⟨final, noted⟩ result) :
    copyType source = (resultIn final result, noted.reverse) := by
  rw [copyType, walked]
  cases result <;> rfl

section

variable {ρ σ : Type} [Reader ρ] [Reader σ] {data : Bytes}
variable {place : ρ → Nat} {possible : ρ → Prop} {place' : σ → Nat} {possible' : σ → Prop}

/-- A reader of a string whose integers are read as ever copies what it passes over. -/
theorem Shows.copiesPassed (shows : Shows data place possible)
    (as_ever : Reader.integer (ρ := ρ) = readCompressed) {source : ρ} (here : possible source) :
    CopiesPassed data place source := by
  obtain ⟨there, forward, walked⟩ := shows.skipType_recording here rfl []
  have copied := copyType_of_recording walked
  have walk : Reader.passType (ρ := ρ) = skipType := Reader.passType_eq as_ever
  have bytes_eq : (copyType source).2 =
      between data (place source) (place (finalState (skipType source))) := by
    rw [copied, List.append_nil, List.reverse_reverse]
  refine ⟨?_, walk ▸ forward, walk ▸ shows.place_le there, walk ▸ bytes_eq, fun out => ?_⟩
  · rw [copied, walk, ← eq_resultIn rfl]
  · obtain ⟨-, -, walked⟩ := shows.skipType_recording here rfl out.reverse
    rw [walked, walk, bytes_eq, List.reverse_append]

/-- Readers of a string at the same place give the same reply to a call and are at the same place
after it. -/
theorem Shows.level_run (one : Shows data place possible) (two : Shows data place' possible')
    (as_ever : Reader.integer (ρ := ρ) = readCompressed)
    (as_ever' : Reader.integer (ρ := σ) = readCompressed) {source : ρ} {other : σ}
    (level : Level place possible place' possible' source other) (call : Call) :
    (call.run source).1 = (call.run other).1 ∧
      Level place possible place' possible' (call.run source).2 (call.run other).2 := by
  have next := one.mirrors_next two
  have walk : Reader.passType (ρ := ρ) = skipType := Reader.passType_eq as_ever
  have walk' : Reader.passType (ρ := σ) = skipType := Reader.passType_eq as_ever'
  obtain ⟨same, after⟩ := mirrors_skipType next level
  cases call with
  | skip =>
    rw [Call.run, Call.run, walk, walk', same]
    exact ⟨rfl, after⟩
  | copy =>
    have here := one.copiesPassed as_ever level.here
    have there := two.copiesPassed as_ever' level.there
    rw [Call.run, Call.run]
    dsimp only
    rw [here.same, there.same, here.bytes, there.bytes, walk, walk', same, level.same, after.same]
    exact ⟨rfl, after⟩
  | integer =>
    obtain ⟨same, after⟩ := mirrors_readCompressed next level
    rw [Call.run, Call.run, as_ever, as_ever', same]
    exact ⟨rfl, after⟩

/-- Level readers give the same replies to any calls, at the same places. The induction is on the
calls: one that fails leaves the readers level too. -/
theorem Shows.transcript_eq (one : Shows data place possible) (two : Shows data place' possible')
    (as_ever : Reader.integer (ρ := ρ) = readCompressed)
    (as_ever' : Reader.integer (ρ := σ) = readCompressed) {source : ρ} {other : σ}
    (level : Level place possible place' possible' source other) (calls : List Call) :
    transcript place calls source = transcript place' calls other ∧
      Level place possible place' possible' (afterCalls calls source) (afterCalls calls other) := by
  induction calls generalizing source other with
  | nil => exact ⟨rfl, level⟩
  | cons call calls ih =>
    obtain ⟨reply_eq, after⟩ := one.level_run two as_ever as_ever' level call
    obtain ⟨rest_eq, last⟩ := ih after
    refine ⟨?_, last⟩
    rw [transcript, transcript, reply_eq, after.same, rest_eq]

end

/-- A cursor over a string and a bounded reader of native memory that starts with it give the same
replies to any calls, and have read as far after each. At any time, with either of them, copying a
type is passing over it, and appends exactly the bytes in between. -/
theorem readers_agree (data beyond : Bytes) (calls : List Call) :
    transcript Cursor.position calls (Cursor.ofBytes data) =
        transcript RawSource.consumed calls
          (RawSource.ofPointer (some (data ++ beyond)) data.length) ∧
      CopiesPassed data Cursor.position (afterCalls calls (Cursor.ofBytes data)) ∧
      CopiesPassed data RawSource.consumed
        (afterCalls calls (RawSource.ofPointer (some (data ++ beyond)) data.length)) := by
  have level : Shows.Level Cursor.position (fun cursor => cursor.data = data)
      RawSource.consumed (RawSource.Holds data beyond) (Cursor.ofBytes data)
      (RawSource.ofPointer (some (data ++ beyond)) data.length) :=
    ⟨rfl, ⟨rfl, Nat.zero_le _, rfl⟩, rfl⟩
  obtain ⟨same, after⟩ :=
    (shows_cursor data).transcript_eq (shows_raw data beyond) Cursor.integer_eq rfl level calls
  exact ⟨same, (shows_cursor data).copiesPassed Cursor.integer_eq after.here,
    (shows_raw data beyond).copiesPassed rfl after.there⟩

end Signature

end CilCapture
