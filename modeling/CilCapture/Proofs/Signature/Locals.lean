import CilCapture.Proofs.Signature.Compressed
import CilCapture.Signature.Locals

/-!
# Local signatures taken apart and put together

A signature that was read from a source is taken apart into the types that the reader passed over
(`splitLocals_of_readLocals`), although it is written by one routine and checked by another. What
can be taken apart is said by the grammar (`splitLocals_eq_ok_iff`), and its types can be read again
from wherever they follow one another (`readLocals_of_splitLocals`).

The proofs rest on the grammar. A source that passed over some types has their encodings in front of
it (`readEncodings_eq_ok_iff`), and a string of encodings can be walked over slice by slice wherever
it stands (`walksEach_of_passes`). Since no encoding continues another, the slices are determined by
the bytes.
-/

namespace CilCapture.Signature

/-! ## Reading encodings -/

section

variable {ρ : Type} [ByteSource ρ]

/-- Walks over one type after another, each with the bytes that it passes over. -/
inductive WalksEach : ρ → List Bytes → ρ → Prop where
  | done (source : ρ) : WalksEach source [] source
  | walk {source middle last : ρ} {slice : Bytes} {slices : List Bytes}
    (walked : skipType source = .ok () middle) (passes : Passes source slice middle)
    (rest : WalksEach middle slices last) : WalksEach source (slice :: slices) last

/-- Copying succeeds just where an encoding stands, and the copy is the encoding. -/
theorem copyType_eq_ok_iff {source last : ρ} {encoding : Bytes} :
    copyType source = (.ok () last, encoding) ↔
      TypeWithin (maxNesting + 1) encoding ∧ Passes source encoding last := by
  have recorded (noted : List UInt8) :
      skipType (⟨source, []⟩ : Recording ρ) = .ok () ⟨last, noted⟩ ↔
        TypeWithin (maxNesting + 1) noted.reverse ∧ Passes source noted.reverse last := by
    rw [skipType_eq_ok_iff]
    simp only [passes_recording_iff, List.append_nil]
    constructor
    · rintro ⟨bytes, encoding, passes, rfl⟩
      rw [List.reverse_reverse]
      exact ⟨encoding, passes⟩
    · rintro ⟨encoding, passes⟩
      exact ⟨_, encoding, passes, (List.reverse_reverse noted).symm⟩
  unfold copyType
  constructor
  · intro copied
    split at copied
    next source' noted walked =>
      cases copied
      exact (recorded noted).mp walked
    next => cases copied
  · rintro ⟨type, passes⟩
    have walked := (recorded encoding.reverse).mpr (by simpa using ⟨type, passes⟩)
    rw [walked]
    simp

/-- Encodings are read just where as many of them stand one behind the other. -/
theorem readEncodings_eq_ok_iff {count : Nat} {source last : ρ} {encodings : List Bytes} :
    readEncodings count source = .ok encodings last ↔ encodings.length = count ∧
      (∀ encoding ∈ encodings, TypeWithin (maxNesting + 1) encoding) ∧
      Passes source encodings.flatten last := by
  induction count generalizing source encodings with
  | zero =>
    rw [List.length_eq_zero_iff]
    constructor
    · rintro ⟨⟩
      exact ⟨rfl, by simp, .stay _⟩
    · rintro ⟨rfl, -, passes⟩
      cases passes
      rfl
  | succ count ih =>
    rw [readEncodings]
    constructor
    · intro read
      split at read
      next => cases read
      next middle encoding copied =>
        split at read
        next rest after reading =>
          cases read
          obtain ⟨type, passes⟩ := copyType_eq_ok_iff.mp copied
          obtain ⟨counted, types, passes'⟩ := ih.mp reading
          exact ⟨by simp [counted], List.forall_mem_cons.mpr ⟨type, types⟩,
            passes_append_iff.mpr ⟨middle, passes, passes'⟩⟩
        next => cases read
    -- back: the bytes of the first type and those of the others are cut at the middle cursor
    · rintro ⟨counted, types, passes⟩
      cases encodings with
      | nil => cases counted
      | cons encoding rest =>
        obtain ⟨type, types⟩ := List.forall_mem_cons.mp types
        obtain ⟨middle, passes, passes'⟩ := passes_append_iff.mp passes
        rw [copyType_eq_ok_iff.mpr ⟨type, passes⟩]
        dsimp only
        rw [ih.mpr ⟨by simpa using counted, types, passes'⟩]

/-- What stands as encodings one behind the other is walked over type by type, in the same slices.
-/
theorem walksEach_of_passes {source last : ρ} {encodings : List Bytes}
    (types : ∀ encoding ∈ encodings, TypeWithin (maxNesting + 1) encoding)
    (passes : Passes source encodings.flatten last) : WalksEach source encodings last := by
  induction encodings generalizing source with
  | nil =>
    cases passes
    exact .done _
  | cons encoding rest ih =>
    obtain ⟨type, types⟩ := List.forall_mem_cons.mp types
    obtain ⟨middle, passes, passes'⟩ := passes_append_iff.mp passes
    exact .walk (skipType_eq_ok_iff.mpr ⟨_, type, passes⟩) passes (ih types passes')

end

/-! ## Signatures -/

/-- A complete signature is the lead, the count in its shortest form and the encodings. -/
theorem buildLocals_eq_ok_iff {count : Nat} {encodings blob : Bytes} :
    buildLocals count encodings = .ok blob ↔
      ∃ spelled, compress count = .ok spelled ∧ blob = localsLead :: (spelled ++ encodings) := by
  unfold buildLocals
  rw [bind_eq_ok]
  constructor
  · rintro ⟨spelled, written, ⟨⟩⟩
    exact ⟨spelled, written, rfl⟩
  · rintro ⟨spelled, written, rfl⟩
    exact ⟨spelled, written, rfl⟩

/-- Locals are read just where as many encodings stand, and become a signature with their count in
front. -/
theorem readLocals_eq_ok_iff {ρ : Type} [ByteSource ρ] {count : Nat} {source last : ρ}
    {blob : Bytes} :
    readLocals count source = .ok blob last ↔ ∃ (slices : List Bytes) (spelled : Bytes),
      slices.length = count ∧
      (∀ slice ∈ slices, TypeWithin (maxNesting + 1) slice) ∧ Passes source slices.flatten last ∧
      compress count = .ok spelled ∧ blob = localsLead :: (spelled ++ slices.flatten) := by
  unfold readLocals
  constructor
  · intro read
    split at read
    next => cases read
    next slices after reading =>
      obtain ⟨counted, types, passes⟩ := readEncodings_eq_ok_iff.mp reading
      split at read
      next built =>
        cases read
        obtain ⟨spelled, written, rfl⟩ := buildLocals_eq_ok_iff.mp built
        exact ⟨slices, spelled, counted, types, passes, written, rfl⟩
      next => cases read
  · rintro ⟨slices, spelled, counted, types, passes, written, rfl⟩
    rw [readEncodings_eq_ok_iff.mpr ⟨counted, types, passes⟩]
    dsimp only
    rw [buildLocals_eq_ok_iff.mpr ⟨spelled, written, rfl⟩]

/-- A local signature is taken apart exactly when it is one, into its types. -/
theorem splitLocals_eq_ok_iff {blob : Bytes} {slices : List Bytes} :
    splitLocals blob = .ok slices ↔ ∃ spelled, Spells slices.length spelled ∧
      (∀ slice ∈ slices, TypeWithin (maxNesting + 1) slice) ∧
      blob = localsLead :: (spelled ++ slices.flatten) := by
  -- the lead byte and the count together, as one grammar
  have header : Recognises (ρ := Cursor) (do
      let lead ← Cursor.next
      if lead ≠ localsLead then throw (.malformed (.notLocals lead))
      readCompressed) fun count bytes =>
        ∃ spelled, Spells count spelled ∧ bytes = localsLead :: spelled := by
    refine (Recognises.next fun lead =>
      .ite ((recognises_throw _).bind fun _ => recognises_readCompressed)
        recognises_readCompressed).congr fun count bytes => ?_
    constructor
    · rintro ⟨lead, rest, rfl, spelled⟩
      split at spelled
      next =>
        obtain ⟨_, _, _, ⟨⟩, -⟩ := spelled
      next same =>
        obtain rfl := not_not.mp same
        exact ⟨rest, spelled, rfl⟩
    · rintro ⟨spelled, spells, rfl⟩
      exact ⟨localsLead, spelled, rfl, by simpa using spells⟩
  unfold splitLocals
  constructor
  · intro split_ok
    split at split_ok
    next => cases split_ok
    next count cursor read =>
      obtain ⟨_, ⟨spelled, spells, rfl⟩, passes⟩ := (header _ _ _).mp read
      split at split_ok
      next => cases split_ok
      next encodings last reading =>
        obtain ⟨rfl, types, passes'⟩ := readEncodings_eq_ok_iff.mp reading
        split at split_ok
        next => cases split_ok
        next finished =>
          cases split_ok
          obtain ⟨ahead, -, -⟩ := passes_cursor_iff.mp passes
          obtain ⟨ahead', -, -⟩ := passes_cursor_iff.mp passes'
          -- with nothing left, as success asks, the two passes add up to the blob
          have none_left : last.ahead = [] := by simpa [Cursor.hasMore] using finished
          refine ⟨spelled, spells, types, ?_⟩
          rw [ahead', none_left, List.append_nil] at ahead
          exact ahead
  · rintro ⟨spelled, spells, types, rfl⟩
    obtain ⟨cursor, passes, ahead, -⟩ :=
      exists_passes_ofBytes (localsLead :: spelled) slices.flatten
    have read := (header _ _ _).mpr ⟨_, ⟨spelled, spells, rfl⟩, passes⟩
    obtain ⟨last, passes', none_left, -⟩ :=
      exists_passes (ahead.trans (List.append_nil _).symm)
    rw [List.cons_append] at read
    rw [read]
    dsimp only
    rw [readEncodings_eq_ok_iff.mpr ⟨rfl, types, passes'⟩]
    simp [Cursor.hasMore, none_left]

/-- A signature that was read is taken apart into the types that were read, each of them what one
walk passed over. -/
theorem splitLocals_of_readLocals {ρ : Type} [ByteSource ρ] {count : Nat} {source last : ρ}
    {blob : Bytes} (read : readLocals count source = .ok blob last) :
    ∃ slices, splitLocals blob = .ok slices ∧ slices.length = count ∧
      WalksEach source slices last ∧ Passes source slices.flatten last := by
  obtain ⟨slices, spelled, rfl, types, passes, written, rfl⟩ := readLocals_eq_ok_iff.mp read
  exact ⟨slices, splitLocals_eq_ok_iff.mpr ⟨spelled, spells_of_compress written, types, rfl⟩, rfl,
    walksEach_of_passes types passes, passes⟩

/-- The types of a signature, read again, make a signature of the same types: the same one, if the
count was in its shortest form. -/
theorem readLocals_of_splitLocals {ρ : Type} [ByteSource ρ] {source last : ρ} {blob : Bytes}
    {slices : List Bytes} (apart : splitLocals blob = .ok slices)
    (passes : Passes source slices.flatten last) :
    ∃ again, readLocals slices.length source = .ok again last ∧ splitLocals again = .ok slices ∧
      ∀ spelled, IsShortest slices.length spelled →
        blob = localsLead :: (spelled ++ slices.flatten) → again = blob := by
  obtain ⟨_, spells, types, -⟩ := splitLocals_eq_ok_iff.mp apart
  obtain ⟨shortest, written⟩ := exists_compress spells.le_greatest
  refine ⟨localsLead :: (shortest ++ slices.flatten), ?_, ?_, ?_⟩
  · exact readLocals_eq_ok_iff.mpr ⟨slices, shortest, rfl, types, passes, written, rfl⟩
  · exact splitLocals_eq_ok_iff.mpr ⟨shortest, spells_of_compress written, types, rfl⟩
  · rintro spelled least rfl
    cases (isShortest_iff.mp least).symm.trans written
    rfl

end CilCapture.Signature
