import CilCapture.Address
import CilCapture.Il.Decode

/-!
# Computations of a machine

What a machine computes with words of its own. A sum that leaves the words, a slice or an index that
leaves a list breaks down; a loop need not end. So a `Machine` comes to a value, to a fault, to a
breakdown, or to nothing at all. A machine follows a computation over naturals if it comes to what
that comes to (`Follows`), and then it ends and does not break down. Two steps follow two steps if
each does (`Follows.bind`).

The four outcomes are an `Option` around an `Except` around the value, so that a loop without an end
is a value too and can be excluded by a theorem. Lemmas about single operations say when they do not
break down. From these `Follows` is proved of whole routines without evaluating them.
-/

namespace CilCapture

theorem Address.limit_eq : Address.limit = 0x10000000000000000 := rfl

/-- A computation that may fail, break down or not end. -/
abbrev Machine (α : Type) := ExceptT Abort Option α

namespace Machine

variable {α β γ δ : Type}

/-- A sum of words. -/
def add (left right : Nat) : Machine Nat :=
  if left + right < Address.limit then pure (left + right) else throw .breakdown

/-- A product of words that are below a limit of their own. -/
def mul (limit left right : Nat) : Machine Nat :=
  if left * right < limit then pure (left * right) else throw .breakdown

/-- A difference of words. -/
def sub (left right : Nat) : Machine Nat :=
  if right ≤ left then pure (left - right) else throw .breakdown

/-- A sum of signed words. -/
def addSigned (left right : Int) : Machine Int :=
  if Address.holdsSigned (left + right) then pure (left + right) else throw .breakdown

/-- The items from one place up to another. -/
def slice (items : List α) (start stop : Nat) : Machine (List α) :=
  if start ≤ stop ∧ stop ≤ items.length then pure ((items.drop start).take (stop - start))
  else throw .breakdown

/-- The items from a place on. -/
def sliceFrom (items : List α) (start : Nat) : Machine (List α) := slice items start items.length

/-- The item at a place. -/
def index (items : List α) (place : Nat) : Machine α :=
  match items[place]? with
  | some item => pure item
  | none => throw .breakdown

/-- The number of `width` bytes at a place, and the place behind it. -/
def readAt (width : Nat) (data : Bytes) (place : Nat) : Machine (Nat × Nat) := do
  let stop := place + width
  if Address.limit ≤ stop then throw (.fault .outOfBounds)
  if data.length < stop then throw (.fault .outOfBounds)
  let bytes ← slice data place stop
  if bytes.length ≠ width then throw (.fault .outOfBounds)
  return (Bytes.toNat bytes, stop)

/-- The number of `width` bytes in front. -/
def read (width : Nat) (data : Bytes) : Machine Nat := Prod.fst <$> readAt width data 0

/-- A sum is computed without an abort where a machine word holds it. -/
theorem add_of_lt {left right : Nat} (small : left + right < Address.limit) :
    add left right = pure (left + right) := if_pos small

/-- A product is computed without an abort where its word holds it. -/
theorem mul_of_lt {limit left right : Nat} (small : left * right < limit) :
    mul limit left right = pure (left * right) := if_pos small

/-- A difference is computed without an abort where it is not negative. -/
theorem sub_of_le {left right : Nat} (le : right ≤ left) : sub left right = pure (left - right) :=
  if_pos le

/-- A sum with a sign is computed without an abort where a signed word holds it. -/
theorem addSigned_of_holds {left right : Int} (holds : Address.holdsSigned (left + right)) :
    addSigned left right = pure (left + right) := if_pos holds

/-- A slice is taken without an abort where it is not turned around and lies inside. -/
theorem slice_of_le {items : List α} {start stop : Nat} (forward : start ≤ stop)
    (inside : stop ≤ items.length) :
    slice items start stop = pure ((items.drop start).take (stop - start)) :=
  if_pos ⟨forward, inside⟩

/-- All that is behind a place is taken without an abort where the place is inside. -/
theorem sliceFrom_of_le {items : List α} {start : Nat} (inside : start ≤ items.length) :
    sliceFrom items start = pure (items.drop start) := by
  rw [sliceFrom, slice_of_le inside (Nat.le_refl _)]
  exact congrArg Pure.pure (List.take_of_length_le (Nat.le_of_eq List.length_drop))

/-- An item is found without an abort where it is there. -/
theorem index_of_getElem? {items : List α} {place : Nat} {item : α}
    (there : items[place]? = some item) : index items place = pure item := by
  rw [index, there]

/-- Runs that come to values are the same only for the same value. -/
theorem pure_inj {left right : α} (same : (pure left : Machine α) = pure right) : left = right :=
  Except.ok.inj (Option.some.inj same)

/-- A run that comes to a value does not abort. -/
theorem pure_ne_throw {value : α} {abort : Abort} : (pure value : Machine α) ≠ throw abort :=
  fun same => nomatch Option.some.inj same

/-! ## Following -/

/-- A machine comes to what a computation comes to: to a value that agrees with its value, or to the
same fault. -/
def Follows (agree : γ → α → Prop) (machine : Machine γ) (result : Except Fault α) : Prop :=
  (∃ made value, agree made value ∧ machine = pure made ∧ result = .ok value) ∨
    ∃ fault, machine = throw (.fault fault) ∧ result = .error fault

/-- A machine that has come to a result. -/
def done (result : Except Fault α) : Machine α :=
  match result with
  | .ok value => pure value
  | .error fault => throw (.fault fault)

/-- A run that follows a result value for value is the run to that result. -/
theorem follows_eq_iff {machine : Machine α} {result : Except Fault α} :
    Follows (· = ·) machine result ↔ machine = done result := by
  constructor
  · rintro (⟨made, _, rfl, rfl, rfl⟩ | ⟨fault, rfl, rfl⟩) <;> rfl
  · rintro rfl
    cases result with
    | ok value => exact .inl ⟨value, value, rfl, rfl, rfl⟩
    | error fault => exact .inr ⟨fault, rfl, rfl⟩

namespace Follows

/-- A value that agrees is followed at once. -/
theorem pure {agree : γ → α → Prop} {made : γ} {value : α} (agrees : agree made value) :
    Follows agree (Pure.pure made) (.ok value) :=
  .inl ⟨made, value, agrees, rfl, rfl⟩

/-- A fault is followed by the same fault, never by an abort. -/
theorem throw {agree : γ → α → Prop} (fault : Fault) :
    Follows agree (MonadExcept.throw (.fault fault)) (.error fault) :=
  .inr ⟨fault, rfl, rfl⟩

/-- One step after another. The second may use what the first one comes to. -/
theorem bind {agree : γ → α → Prop} {agree' : δ → β → Prop} {machine : Machine γ}
    {result : Except Fault α} {next : γ → Machine δ} {rest : α → Except Fault β}
    (first : Follows agree machine result)
    (second : ∀ made value, agree made value → result = .ok value →
      Follows agree' (next made) (rest value)) :
    Follows agree' (machine >>= next) (result >>= rest) := by
  rcases first with ⟨made, value, agrees, rfl, rfl⟩ | ⟨fault, rfl, rfl⟩
  · exact second made value agrees rfl
  · exact .inr ⟨fault, rfl, rfl⟩

/-- What follows a result still does so after changes of both that agree. -/
theorem map {agree : γ → α → Prop} {agree' : δ → β → Prop} {machine : Machine γ}
    {result : Except Fault α} {change : γ → δ} {change' : α → β}
    (follows : Follows agree machine result)
    (agrees : ∀ made value, agree made value → result = .ok value →
      agree' (change made) (change' value)) :
    Follows agree' (change <$> machine) (change' <$> result) := by
  rcases follows with ⟨made, value, here, rfl, rfl⟩ | ⟨fault, rfl, rfl⟩
  · exact .inl ⟨_, _, agrees made value here rfl, rfl, rfl⟩
  · exact .inr ⟨fault, rfl, rfl⟩

/-- Item by item, a machine that follows each step follows them all. -/
theorem mapM {step : δ → Machine α} {plain : δ → Except Fault α} {items : List δ}
    (each : ∀ item ∈ items, Follows (· = ·) (step item) (plain item)) :
    Follows (· = ·) (items.mapM step) (items.mapM plain) := by
  induction items with
  | nil => exact .pure rfl
  | cons item items ih =>
    obtain ⟨head, tail⟩ := List.forall_mem_cons.mp each
    rw [List.mapM_cons, List.mapM_cons]
    refine head.bind fun made value same _ => ?_
    refine (ih tail).bind fun others values same' _ => ?_
    rw [same, same']
    exact .pure rfl

end Follows

end Machine

/-! ## Reading numbers -/

/-- Reading a number in one look: there are enough bytes or there are not. -/
theorem Bytes.readNat_eq (width : Nat) (bytes : Bytes) :
    readNat width bytes =
      if width ≤ bytes.length then some (toNat (bytes.take width), bytes.drop width) else none := by
  induction width generalizing bytes with
  | zero => rfl
  | succ width ih =>
    cases bytes with
    | nil => rfl
    | cons byte rest =>
      rw [readNat, ih, List.length_cons]
      by_cases enough : width ≤ rest.length
      · rw [if_pos enough, if_pos (Nat.succ_le_succ enough)]
        rfl
      · rw [if_neg enough, if_neg (by omega)]

namespace Machine

/-- Reading at a place of a string comes to the number there, or is out of bounds. -/
theorem follows_takeNumber {width place : Nat} {data : Bytes} (some_byte : 0 < width)
    (short : data.length < Address.limit) :
    Follows (fun made taken => made = (taken.1, place + width) ∧ place + width ≤ data.length ∧
        taken.2 = data.drop (place + width)) (readAt width data place)
      (Il.takeNumber width (data.drop place)) := by
  rw [readAt, Il.takeNumber, Bytes.readNat_eq, List.length_drop]
  dsimp only
  by_cases inside : place + width ≤ data.length
  · have few : (data.drop place).length ≥ width := by
      rw [List.length_drop]
      omega
    rw [if_neg (by omega), if_neg (by omega), slice_of_le (by omega) inside,
      Nat.add_sub_cancel_left, if_pos (by omega), pure_bind, List.length_take_of_le few,
      if_neg (by simp), List.drop_drop]
    exact .pure ⟨rfl, inside, rfl⟩
  · rw [if_neg (by omega : ¬ width ≤ data.length - place)]
    split
    · exact .throw _
    · rw [if_pos (by omega)]
      exact .throw _

end Machine

end CilCapture
