import CilCapture.Proofs.Outcome
import CilCapture.Text.Blank
import CilCapture.Text.Numeral

/-!
# Numerals are read back

A number that is written in a base with at most 36 digits is read back as it was
(`readWord?_render`). Its digits are decimal digits and capitals, none of which is blank, a sign or
a mark of a base. What can be read at all is told without the reader by `Spells`.

Writing gives digits without a sign, so reading what was written is Horner's rule on the digits
(`valueFrom?_render`), by induction on the value through the last digit. Reading takes more than is
ever written: leading zeros, small letters and one plus sign. `read?_eq_some_iff` says exactly how
much more.
-/

namespace CilCapture.Numeral

/-- Every digit of a numeral is below its base. -/
theorem lt_of_mem_digits {base value digit : Nat} (large : 2 ≤ base)
    (mem : digit ∈ digits base value) : digit < base := by
  fun_induction digits base value with
  | case1 value last =>
    rw [List.mem_singleton.mp mem]
    omega
  | case2 value more ih =>
    rcases List.mem_append.mp mem with mem | mem
    · exact ih mem
    · rw [List.mem_singleton.mp mem]
      exact Nat.mod_lt value (by omega)

/-- Even zero is written with a digit, so that no numeral is empty. -/
theorem digits_ne_nil (base value : Nat) : digits base value ≠ [] := by
  unfold digits
  split
  · exact List.cons_ne_nil _ _
  · exact List.append_ne_nil_of_right_ne_nil _ (List.cons_ne_nil _ _)

/-- The code of a digit: `0` to `9`, then `A` to `Z`. -/
theorem toNat_digitChar {digit : Nat} (small : digit < 36) :
    (digitChar digit).toNat = if digit < 10 then 48 + digit else 55 + digit := by
  decide +revert

/-- A digit's character is read back as the digit, in every base that has that many characters. -/
theorem digitValue?_digitChar {base digit : Nat} (small : base ≤ 36) (inside : digit < base) :
    digitValue? base (digitChar digit) = some digit := by
  have code := toNat_digitChar (Nat.lt_of_lt_of_le inside small)
  rw [digitValue?, code]
  by_cases numeric : digit < 10
  · have range : 48 ≤ 48 + digit ∧ 48 + digit ≤ 57 := by omega
    simp only [if_pos numeric, if_pos range, Nat.add_sub_cancel_left, if_pos inside]
  · have not_numeric : ¬(48 ≤ 55 + digit ∧ 55 + digit ≤ 57) := by omega
    have range : 65 ≤ 55 + digit ∧ 55 + digit ≤ 90 := by omega
    simp only [if_neg numeric, if_neg not_numeric, if_pos range, Nat.add_sub_cancel_left,
      if_pos inside]

/-- The value of a text is taken from the left: what the front is worth is the start for the back.
-/
theorem valueFrom?_append (base value : Nat) (front back : List Char) :
    valueFrom? base value (front ++ back) =
      (valueFrom? base value front).bind fun middle => valueFrom? base middle back := by
  induction front generalizing value with
  | nil => rfl
  | cons c front ih =>
    rw [List.cons_append, valueFrom?, valueFrom?]
    cases digitValue? base c with
    | none => rfl
    | some digit => exact ih _

/-- Without a width to fill, a numeral is its digits. -/
@[simp] theorem render_unpadded (base value : Nat) :
    render base 0 value = (digits base value).map digitChar := by
  simp [render]

/-- The digits that a value is written with are worth the value. -/
theorem valueFrom?_render {base : Nat} (large : 2 ≤ base) (small : base ≤ 36) (value : Nat) :
    valueFrom? base 0 (render base 0 value) = some value := by
  rw [render_unpadded]
  fun_induction digits base value with
  | case1 value last =>
    rw [List.map_singleton, valueFrom?, digitValue?_digitChar small (by omega)]
    simp only [valueFrom?, Nat.zero_mul, Nat.zero_add]
  | case2 value more ih =>
    have inside : value % base < base := Nat.mod_lt value (by omega)
    rw [List.map_append, valueFrom?_append, ih, Option.bind_some, List.map_singleton, valueFrom?,
      digitValue?_digitChar small inside]
    simp only [valueFrom?]
    rw [Nat.mul_comm, Nat.div_add_mod]

/-! ## What a numeral is made of -/

/-- The characters of a numeral are the characters of digits below the base. -/
theorem exists_digit_of_mem_render {base value : Nat} {c : Char} (large : 2 ≤ base)
    (mem : c ∈ render base 0 value) : ∃ digit < base, digitChar digit = c := by
  rw [render_unpadded] at mem
  obtain ⟨digit, spelled, rfl⟩ := List.mem_map.mp mem
  exact ⟨digit, lt_of_mem_digits large spelled, rfl⟩

/-- A numeral is never the empty text, which no reader takes. -/
theorem render_ne_nil (base value : Nat) : render base 0 value ≠ [] := by
  rw [render_unpadded]
  exact mt List.map_eq_nil_iff.mp (digits_ne_nil base value)

/-- A character that is no digit does not occur in a numeral. -/
theorem not_mem_render {base value : Nat} {c : Char} (large : 2 ≤ base)
    (different : ∀ digit < base, digitChar digit ≠ c) : c ∉ render base 0 value := by
  intro mem
  obtain ⟨digit, inside, same⟩ := exists_digit_of_mem_render large mem
  exact different digit inside same

/-- No digit is a blank, whatever the base. -/
theorem isBlank_digitChar {digit : Nat} (small : digit < 36) :
    Text.isBlank (digitChar digit) = false := by
  decide +revert

/-- A numeral holds no blank, so trimming leaves it as it is. -/
theorem isBlank_of_mem_render {base value : Nat} {c : Char} (large : 2 ≤ base)
    (small : base ≤ 36) (mem : c ∈ render base 0 value) : Text.isBlank c = false := by
  obtain ⟨digit, inside, rfl⟩ := exists_digit_of_mem_render large mem
  exact isBlank_digitChar (Nat.lt_of_lt_of_le inside small)

/-- A numeral holds no plus sign, the one character besides digits that a reader lets pass. -/
theorem plus_not_mem_render {base value : Nat} (large : 2 ≤ base) (small : base ≤ 36) :
    '+' ∉ render base 0 value := by
  have different : ∀ digit < 36, digitChar digit ≠ '+' := by decide
  exact not_mem_render large fun digit inside =>
    different digit (Nat.lt_of_lt_of_le inside small)

/-! ## Reading -/

/-- Where no sign stands in front, reading is nothing but adding up the digits. -/
theorem read?_of_no_plus {base : Nat} {text : List Char} (some_digit : text ≠ [])
    (unsigned : '+' ∉ text) : read? base text = valueFrom? base 0 text := by
  unfold read?
  split
  next => exact absurd rfl some_digit
  next => exact absurd List.mem_cons_self unsigned
  next => exact absurd List.mem_cons_self unsigned
  next => rfl

/-- A number that the bits can hold is read back. -/
theorem readWord?_render {base bits value : Nat} (large : 2 ≤ base) (small : base ≤ 36)
    (fits : value < Nat.pow 2 bits) : readWord? base bits (render base 0 value) = some value := by
  rw [readWord?, read?_of_no_plus (render_ne_nil base value) (plus_not_mem_render large small),
    valueFrom?_render large small]
  exact if_pos fits

/-! ## What is a numeral -/

/-- A numeral of a base: digits, and in front of them at most one plus sign. -/
def Spells (base : Nat) (text : List Char) (value : Nat) : Prop :=
  ∃ digits worths, (text = digits ∨ text = '+' :: digits) ∧ digits ≠ [] ∧
    List.Forall₂ (fun c worth => digitValue? base c = some worth) digits worths ∧
    value = worths.foldl (fun value worth => value * base + worth) 0

/-- A text has a value just when each of its characters is a digit; the value is then the one that
Horner's rule gives. -/
theorem valueFrom?_eq_some_iff {base start value : Nat} {text : List Char} :
    valueFrom? base start text = some value ↔
      ∃ worths, List.Forall₂ (fun c worth => digitValue? base c = some worth) text worths ∧
        value = worths.foldl (fun value worth => value * base + worth) start := by
  induction text generalizing start with
  | nil => simp [valueFrom?, eq_comm]
  | cons c rest ih =>
    rw [valueFrom?]
    cases digit : digitValue? base c with
    | none => simp [List.forall₂_cons_left_iff, digit]
    | some worth =>
      dsimp only
      rw [ih]
      constructor
      · rintro ⟨worths, spelled, rfl⟩
        exact ⟨worth :: worths, .cons digit spelled, rfl⟩
      · rintro ⟨_, spelled, rfl⟩
        obtain ⟨first, worths, head, tail, rfl⟩ := List.forall₂_cons_left_iff.mp spelled
        cases digit.symm.trans head
        exact ⟨worths, tail, rfl⟩

theorem digitValue?_plus (base : Nat) : digitValue? base '+' = none := by
  simp [digitValue?]

/-- A sign in front is not a digit of any base, so a signed text is never read as an unsigned one.
-/
theorem not_digits_of_plus {base : Nat} {rest : List Char} {worths : List Nat} :
    ¬ List.Forall₂ (fun c worth => digitValue? base c = some worth) ('+' :: rest) worths := by
  intro spelled
  obtain ⟨worth, _, head, -⟩ := List.forall₂_cons_left_iff.mp spelled
  rw [digitValue?_plus] at head
  cases head

/-- A numeral is read just when the text spells one: digits, at least one of them, and at most one
plus sign in front. -/
theorem read?_eq_some_iff {base value : Nat} {text : List Char} :
    read? base text = some value ↔ Spells base text value := by
  unfold read?
  split
  next =>
    refine iff_of_false nofun ?_
    rintro ⟨digits, worths, rfl | same, some_digit, -⟩
    · exact some_digit rfl
    · cases same
  next =>
    refine iff_of_false nofun ?_
    rintro ⟨digits, worths, rfl | same, some_digit, spelled, -⟩
    · exact not_digits_of_plus spelled
    · cases same
      exact some_digit rfl
  next digits some_digit =>
    rw [valueFrom?_eq_some_iff]
    constructor
    · rintro ⟨worths, spelled, value_eq⟩
      exact ⟨digits, worths, .inr rfl, fun none_left => some_digit none_left, spelled, value_eq⟩
    · rintro ⟨others, worths, rfl | same, -, spelled, value_eq⟩
      · exact absurd spelled not_digits_of_plus
      · cases same
        exact ⟨worths, spelled, value_eq⟩
  next some_digit _ unsigned =>
    rw [valueFrom?_eq_some_iff]
    constructor
    · rintro ⟨worths, spelled, value_eq⟩
      exact ⟨text, worths, .inl rfl, some_digit, spelled, value_eq⟩
    · rintro ⟨digits, worths, rfl | same, -, spelled, value_eq⟩
      · exact ⟨worths, spelled, value_eq⟩
      · exact absurd same (unsigned digits)

/-- A word is a numeral of a number that its bits can hold. -/
theorem readWord?_eq_some_iff {base bits value : Nat} {text : List Char} :
    readWord? base bits text = some value ↔ Spells base text value ∧ value < Nat.pow 2 bits := by
  rw [← read?_eq_some_iff, readWord?]
  cases read? base text with
  | none => simp
  | some found =>
    dsimp only
    split
    next fits =>
      constructor
      · intro same
        cases same
        exact ⟨rfl, fits⟩
      · exact And.left
    next long =>
      refine iff_of_false nofun ?_
      rintro ⟨same, fits⟩
      cases same
      exact long fits

/-- Every character of a numeral is a digit or the sign. -/
theorem Spells.digit_or_plus {base value : Nat} {text : List Char} (spells : Spells base text value)
    {c : Char} (mem : c ∈ text) : c = '+' ∨ ∃ worth, digitValue? base c = some worth := by
  obtain ⟨digits, worths, shape, -, spelled, -⟩ := spells
  have digit {c : Char} (mem : c ∈ digits) : ∃ worth, digitValue? base c = some worth := by
    obtain ⟨worth, -, there⟩ := exists_of_mem_left spelled mem
    exact ⟨worth, there⟩
  rcases shape with rfl | rfl
  · exact .inr (digit mem)
  · rcases List.mem_cons.mp mem with rfl | mem
    · exact .inl rfl
    · exact .inr (digit mem)

end CilCapture.Numeral
