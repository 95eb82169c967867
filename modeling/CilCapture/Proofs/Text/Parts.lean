import CilCapture.Text.Blank

/-!
# Taking text apart

What was put together with separators is taken apart again: the parts of a text come back from
`splitAt` as long as none of them holds the separator (`splitAt_intercalate`, `splitAt_flatMap`),
the parts of any text make up the text (`intercalate_splitAt`), and `cut?` gives what stands around
the first separator. A text without blanks is not changed by `trim`.

The lemmas are about one separator at a time and go by induction on the text, with the first
separator as the case that matters. Offset tables use them for lines, versions for their dots, and
assignments for their sign.
-/

namespace CilCapture.Text

variable {separator : Char}

/-- A text without the separator is one part. -/
theorem splitAt_of_not_mem {part : List Char} (free : separator ∉ part) :
    splitAt separator part = [part] := by
  induction part with
  | nil => rfl
  | cons c rest ih =>
    rw [splitAt, if_neg (List.ne_of_not_mem_cons free).symm,
      ih (List.not_mem_of_not_mem_cons free)]

/-- The first separator ends the first part; what follows it is split by itself. -/
theorem splitAt_append_cons {part : List Char} (free : separator ∉ part) (rest : List Char) :
    splitAt separator (part ++ separator :: rest) = part :: splitAt separator rest := by
  induction part with
  | nil => rw [List.nil_append, splitAt, if_pos rfl]
  | cons c part ih =>
    rw [List.cons_append, splitAt, if_neg (List.ne_of_not_mem_cons free).symm,
      ih (List.not_mem_of_not_mem_cons free)]

/-- Parts that are joined by a separator that none of them holds come back. -/
theorem splitAt_intercalate {parts : List (List Char)} (some_part : parts ≠ [])
    (free : ∀ part ∈ parts, separator ∉ part) :
    splitAt separator ([separator].intercalate parts) = parts := by
  induction parts with
  | nil => exact absurd rfl some_part
  | cons part parts ih =>
    obtain ⟨part_free, parts_free⟩ := List.forall_mem_cons.mp free
    cases parts with
    | nil =>
      rw [List.intercalate_singleton]
      exact splitAt_of_not_mem part_free
    | cons next parts =>
      rw [List.intercalate_cons_cons, List.append_assoc, List.singleton_append,
        splitAt_append_cons part_free, ih (List.cons_ne_nil _ _) parts_free]

/-- Parts of which each one is followed by the separator come back, with an empty one at the end. -/
theorem splitAt_flatMap {parts : List (List Char)} (free : ∀ part ∈ parts, separator ∉ part) :
    splitAt separator (parts.flatMap (· ++ [separator])) = parts ++ [[]] := by
  induction parts with
  | nil => rfl
  | cons part parts ih =>
    obtain ⟨part_free, parts_free⟩ := List.forall_mem_cons.mp free
    rw [List.flatMap_cons, List.append_assoc, List.singleton_append,
      splitAt_append_cons part_free, ih parts_free, List.cons_append]

/-- A cut is made at the first separator. -/
theorem cut?_append_cons {before : List Char} (free : separator ∉ before) (after : List Char) :
    cut? separator (before ++ separator :: after) = some (before, after) := by
  induction before with
  | nil => rw [List.nil_append, cut?, if_pos rfl]
  | cons c before ih =>
    rw [List.cons_append, cut?, if_neg (List.ne_of_not_mem_cons free).symm,
      ih (List.not_mem_of_not_mem_cons free)]
    rfl

/-- There is always a part, if only the empty one. -/
theorem splitAt_ne_nil (text : List Char) : splitAt separator text ≠ [] := by
  cases text with
  | nil => exact List.cons_ne_nil _ _
  | cons c rest =>
    unfold splitAt
    split
    next => exact List.cons_ne_nil _ _
    next => split <;> exact List.cons_ne_nil _ _

/-- Any other character belongs to the part that it stands in front of. -/
theorem splitAt_cons_of_ne {c : Char} (other : c ≠ separator) (rest : List Char) :
    ∃ part parts, splitAt separator rest = part :: parts ∧
      splitAt separator (c :: rest) = (c :: part) :: parts := by
  have some_part : splitAt separator rest ≠ [] := splitAt_ne_nil rest
  obtain ⟨part, parts, split⟩ := List.exists_cons_of_ne_nil some_part
  refine ⟨part, parts, split, ?_⟩
  rw [splitAt, if_neg other, split]

/-- The parts of a text, joined again, are the text. -/
theorem intercalate_splitAt (text : List Char) :
    [separator].intercalate (splitAt separator text) = text := by
  induction text with
  | nil => rfl
  | cons c rest ih =>
    by_cases same : c = separator
    · rw [splitAt, if_pos same,
        List.intercalate_cons_of_ne_nil (splitAt_ne_nil rest), ih, same]
      rfl
    · obtain ⟨part, parts, split, split'⟩ := splitAt_cons_of_ne same rest
      rw [split'] at *
      rw [split] at ih
      cases parts with
      | nil =>
        rw [List.intercalate_singleton] at ih ⊢
        rw [ih]
      | cons next parts =>
        rw [List.intercalate_cons_cons] at ih ⊢
        rw [← ih]
        rfl

/-- A cut gives the two texts around the first separator, and nothing else does. -/
theorem cut?_eq_some_iff {text before after : List Char} :
    cut? separator text = some (before, after) ↔
      text = before ++ separator :: after ∧ separator ∉ before := by
  constructor
  · intro cut
    induction text generalizing before with
    | nil => cases cut
    | cons c rest ih =>
      unfold cut? at cut
      split at cut
      next same =>
        cases cut
        exact ⟨by rw [same]; rfl, List.not_mem_nil⟩
      next other =>
        obtain ⟨⟨front, back⟩, cut_rest, both⟩ := Option.map_eq_some_iff.mp cut
        cases both
        obtain ⟨rfl, free⟩ := ih cut_rest
        exact ⟨rfl, List.not_mem_cons_of_ne_of_not_mem (Ne.symm other) free⟩
  · rintro ⟨rfl, free⟩
    exact cut?_append_cons free after

/-- A cut fails just for the texts without a separator. -/
theorem cut?_eq_none_iff {text : List Char} : cut? separator text = none ↔ separator ∉ text := by
  induction text with
  | nil => simp [cut?]
  | cons c rest ih =>
    unfold cut?
    split
    next same => simp [same]
    next other => simp [ih, Ne.symm other]

/-- Stripping succeeds just on the texts with that beginning, and gives what is behind it. -/
theorem strip?_eq_some_iff {start text rest : List Char} :
    strip? start text = some rest ↔ text = start ++ rest := by
  induction start generalizing text with
  | nil => simp [strip?]
  | cons c start ih =>
    cases text with
    | nil => simp [strip?]
    | cons d text =>
      unfold strip?
      split
      next same => simp [ih, same]
      next other => simp [Ne.symm other]

/-- A text without a character of `start` does not begin with it. -/
theorem strip?_eq_none {start text : List Char} {c : Char} (mem : c ∈ start) (free : c ∉ text) :
    strip? start text = none := by
  induction start generalizing text with
  | nil => cases mem
  | cons first start ih =>
    cases text with
    | nil => rfl
    | cons d text =>
      unfold strip?
      split
      next same =>
        rcases List.mem_cons.mp mem with rfl | mem
        · exact absurd (same ▸ List.mem_cons_self) free
        · exact ih mem (List.not_mem_of_not_mem_cons free)
      next => rfl

/-- What stands in a joined text is the separator or stands in one of the parts. -/
theorem mem_of_mem_intercalate {parts : List (List Char)} {c : Char}
    (mem : c ∈ [separator].intercalate parts) : c = separator ∨ ∃ part ∈ parts, c ∈ part := by
  induction parts with
  | nil => cases mem
  | cons part parts ih =>
    cases parts with
    | nil =>
      rw [List.intercalate_singleton] at mem
      exact .inr ⟨part, List.mem_cons_self, mem⟩
    | cons next parts =>
      rw [List.intercalate_cons_cons, List.append_assoc, List.singleton_append, List.mem_append,
        List.mem_cons] at mem
      rcases mem with here | rfl | later
      · exact .inr ⟨part, List.mem_cons_self, here⟩
      · exact .inl rfl
      · refine (ih later).imp_right ?_
        rintro ⟨other, mem, holds⟩
        exact ⟨other, List.mem_cons_of_mem _ mem, holds⟩

/-- There is nothing to drop in front of a text without blanks. -/
theorem trimStart_of_no_blank {text : List Char} (full : ∀ c ∈ text, isBlank c = false) :
    trimStart text = text := by
  cases text with
  | nil => rfl
  | cons c rest =>
    exact List.dropWhile_cons_of_neg (ne_true_of_eq_false (full c List.mem_cons_self))

/-- Trimming a text without blanks gives the text. -/
theorem trim_of_no_blank {text : List Char} (full : ∀ c ∈ text, isBlank c = false) :
    trim text = text := by
  have reversed : ∀ c ∈ text.reverse, isBlank c = false :=
    fun c mem => full c (List.mem_reverse.mp mem)
  rw [trim, trimStart_of_no_blank full, trimStart_of_no_blank reversed, List.reverse_reverse]

end CilCapture.Text
