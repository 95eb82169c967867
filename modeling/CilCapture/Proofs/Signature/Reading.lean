import CilCapture.Cursor
import CilCapture.Proofs.Outcome

/-!
# Steps that recognise a language

A step that reads from a byte source is described by what it accepts: `Recognises step language`
says that the step comes to a value exactly where the next bytes spell it, and stops right behind
them. The two directions are proved together, since they compose together: one step after another
recognises one language after the other (`Recognises.bind`), a step repeated recognises a sequence
(`recognises_times`). Nothing is asked of the source, so what is shown holds of a cursor
(`passes_cursor_iff`) and of native memory, and of both with every byte noted
(`passes_recording_iff`).

`Passes` is what connects the bytes to a source: the source hands them out one by one and is another
source afterwards. A language is a relation between a value and bytes, so that counted lists can
depend on the count that stands in front of them.
-/

namespace CilCapture.Signature

variable {ρ α β : Type} [ByteSource ρ]

/-! ## Passing over bytes -/

/-- The next bytes of a source and the source behind them. -/
inductive Passes : ρ → Bytes → ρ → Prop where
  | stay (source : ρ) : Passes source [] source
  | read {source middle last : ρ} {byte : UInt8} {bytes : Bytes}
    (next : ByteSource.next source = .ok byte middle) (rest : Passes middle bytes last) :
    Passes source (byte :: bytes) last

@[simp] theorem passes_nil_iff {source last : ρ} : Passes source [] last ↔ source = last := by
  constructor
  · rintro ⟨⟩
    rfl
  · rintro rfl
    exact .stay source

@[simp] theorem passes_cons_iff {source last : ρ} {byte : UInt8} {bytes : Bytes} :
    Passes source (byte :: bytes) last ↔
      ∃ middle, ByteSource.next source = .ok byte middle ∧ Passes middle bytes last := by
  constructor
  · rintro (_ | ⟨next, rest⟩)
    exact ⟨_, next, rest⟩
  · rintro ⟨middle, next, rest⟩
    exact .read next rest

/-- Bytes in two parts are read one part after the other. -/
theorem passes_append_iff {source last : ρ} {front back : Bytes} :
    Passes source (front ++ back) last ↔
      ∃ middle, Passes source front middle ∧ Passes middle back last := by
  induction front generalizing source with
  | nil => simp
  | cons byte front ih =>
    simp only [List.cons_append, passes_cons_iff, ih]
    constructor
    · rintro ⟨first, next, middle, here, there⟩
      exact ⟨middle, ⟨first, next, here⟩, there⟩
    · rintro ⟨middle, ⟨first, next, here⟩, there⟩
      exact ⟨first, next, middle, here, there⟩

/-- A cursor reads the byte ahead of it and is one place further. -/
theorem next_cursor_eq_ok_iff {cursor last : Cursor} {byte : UInt8} :
    ByteSource.next cursor = .ok byte last ↔ cursor.ahead = byte :: last.ahead ∧
      last.data = cursor.data ∧ last.position = cursor.position + 1 := by
  show Cursor.next cursor = _ ↔ _
  unfold Cursor.next
  split
  next first rest ahead =>
    constructor
    · rintro ⟨⟩
      exact ⟨ahead, rfl, rfl⟩
    · rintro ⟨same, same_data, same_position⟩
      obtain ⟨rfl, rfl⟩ := List.cons.inj (ahead.symm.trans same)
      cases last
      cases same_data
      cases same_position
      rfl
  next ahead => simp [ahead]

/-- A cursor passes over the bytes ahead of it. -/
theorem passes_cursor_iff {cursor last : Cursor} {bytes : Bytes} :
    Passes cursor bytes last ↔ cursor.ahead = bytes ++ last.ahead ∧ last.data = cursor.data ∧
      last.position = cursor.position + bytes.length := by
  induction bytes generalizing cursor with
  | nil =>
    constructor
    · rintro ⟨⟩
      exact ⟨rfl, rfl, rfl⟩
    · rintro ⟨same_ahead, same_data, same_position⟩
      cases cursor
      cases last
      cases same_ahead
      cases same_data
      cases same_position
      exact .stay _
  | cons byte bytes ih =>
    simp only [passes_cons_iff, next_cursor_eq_ok_iff, ih, List.length_cons, List.cons_append]
    constructor
    · rintro ⟨middle, ⟨here, data, position⟩, there, data', position'⟩
      exact ⟨by rw [here, there], data'.trans data, by omega⟩
    · rintro ⟨ahead, data, position⟩
      obtain ⟨middle, next⟩ : ∃ middle, Cursor.next cursor = .ok byte middle := by
        unfold Cursor.next
        split
        next first rest ahead' =>
          cases ahead'.symm.trans ahead
          exact ⟨_, rfl⟩
        next ahead' => cases ahead'.symm.trans ahead
      obtain ⟨here, data', position'⟩ := next_cursor_eq_ok_iff.mp next
      refine ⟨middle, ⟨here, data', position'⟩, ?_, data.trans data'.symm, by omega⟩
      exact (List.cons.inj (here.symm.trans ahead)).2

/-- A cursor can pass over every front part of the bytes ahead. -/
theorem exists_passes {cursor : Cursor} {front back : Bytes}
    (ahead : cursor.ahead = front ++ back) :
    ∃ last, Passes cursor front last ∧ last.ahead = back ∧
      last.position = cursor.position + front.length := by
  have back_eq : back = cursor.data.drop (cursor.position + front.length) := by
    rw [← List.drop_drop, ← cursor.ahead_eq, ahead, List.drop_left]
  have inside : cursor.position + front.length ≤ cursor.data.length := by
    have := cursor.remaining_eq
    have := cursor.position_le
    rw [Cursor.remaining, ahead, List.length_append] at *
    omega
  refine ⟨⟨cursor.data, _, back, back_eq, inside⟩, ?_, rfl, rfl⟩
  exact passes_cursor_iff.mpr ⟨ahead, rfl, rfl⟩

/-- A string can be read up to any place in it. -/
theorem exists_passes_ofBytes (front back : Bytes) :
    ∃ last, Passes (Cursor.ofBytes (front ++ back)) front last ∧ last.ahead = back ∧
      last.position = front.length := by
  have ahead : (Cursor.ofBytes (front ++ back)).ahead = front ++ back := rfl
  obtain ⟨last, passes, ahead, position⟩ := exists_passes ahead
  exact ⟨last, passes, ahead, position.trans (Nat.zero_add _)⟩

/-- What a recording passes over is what its source does, and is noted. -/
theorem passes_recording_iff {recording last : Recording ρ} {bytes : Bytes} :
    Passes recording bytes last ↔
      Passes recording.source bytes last.source ∧
        last.noted = bytes.reverse ++ recording.noted := by
  induction bytes generalizing recording with
  | nil =>
    obtain ⟨source, noted⟩ := recording
    obtain ⟨source', noted'⟩ := last
    simp [eq_comm]
  | cons byte bytes ih =>
    have next_iff {middle : Recording ρ} : ByteSource.next recording = .ok byte middle ↔
        ByteSource.next recording.source = .ok byte middle.source ∧
          middle.noted = byte :: recording.noted := by
      show Recording.next recording = _ ↔ _
      unfold Recording.next
      cases ByteSource.next recording.source with
      | ok first source =>
        obtain ⟨source', noted'⟩ := middle
        simp only [EStateM.Result.ok.injEq, Recording.mk.injEq]
        constructor
        · rintro ⟨rfl, rfl, rfl⟩
          exact ⟨⟨rfl, rfl⟩, rfl⟩
        · rintro ⟨⟨rfl, rfl⟩, rfl⟩
          exact ⟨rfl, rfl, rfl⟩
      | error fault source => simp
    simp only [passes_cons_iff, next_iff, ih, List.reverse_cons, List.append_assoc,
      List.singleton_append]
    constructor
    · rintro ⟨middle, ⟨next, noted⟩, rest, noted'⟩
      exact ⟨⟨middle.source, next, rest⟩, by rw [noted', noted]⟩
    · rintro ⟨⟨middle, next, rest⟩, noted⟩
      exact ⟨⟨middle, byte :: recording.noted⟩, ⟨next, rfl⟩, rest, noted⟩

/-! ## Recognising -/

/-- A step that succeeds exactly where a value is spelled, and stops right behind it. -/
def Recognises (step : EStateM Fault ρ α) (language : α → Bytes → Prop) : Prop :=
  ∀ source value last,
    step source = .ok value last ↔ ∃ bytes, language value bytes ∧ Passes source bytes last

/-- A language may be described in another way. -/
theorem Recognises.congr {step : EStateM Fault ρ α} {language language' : α → Bytes → Prop}
    (recognises : Recognises step language)
    (same : ∀ value bytes, language value bytes ↔ language' value bytes) :
    Recognises step language' := by
  intro source value last
  simp only [recognises source value last, same]

/-- A step that does nothing recognises its value in no bytes. -/
theorem recognises_pure (value : α) :
    Recognises (pure value : EStateM Fault ρ α) fun found bytes => found = value ∧ bytes = [] := by
  intro source found last
  constructor
  · rintro ⟨⟩
    exact ⟨[], ⟨rfl, rfl⟩, .stay source⟩
  · rintro ⟨bytes, ⟨rfl, rfl⟩, here⟩
    cases here
    rfl

/-- A step that only fails recognises nothing. -/
theorem recognises_throw (fault : Fault) :
    Recognises (throw fault : EStateM Fault ρ α) fun _ _ => False := by
  intro source found last
  constructor
  · rintro ⟨⟩
  · rintro ⟨bytes, ⟨⟩, -⟩

/-- Reading a byte recognises every byte. -/
theorem recognises_next :
    Recognises (ByteSource.next (ρ := ρ)) fun byte bytes => bytes = [byte] := by
  intro source byte last
  simp

/-- One step after another recognises one spelling after another. -/
theorem Recognises.bind {step : EStateM Fault ρ α} {next : α → EStateM Fault ρ β}
    {first : α → Bytes → Prop} {second : α → β → Bytes → Prop} (one : Recognises step first)
    (other : ∀ value, Recognises (next value) (second value)) :
    Recognises (step >>= next) fun result bytes =>
      ∃ value front back, first value front ∧ second value result back ∧ bytes = front ++ back := by
  intro source result last
  simp only [run_bind_eq_ok, one source, other _ _ result last]
  constructor
  · rintro ⟨value, middle, ⟨front, here, passes⟩, back, there, on⟩
    exact ⟨_, ⟨value, front, back, here, there, rfl⟩, passes_append_iff.mpr ⟨middle, passes, on⟩⟩
  · rintro ⟨_, ⟨value, front, back, here, there, rfl⟩, passes⟩
    obtain ⟨middle, passes, on⟩ := passes_append_iff.mp passes
    exact ⟨value, middle, ⟨front, here, passes⟩, back, there, on⟩

/-- A step that starts with the next byte. -/
theorem Recognises.next {next : UInt8 → EStateM Fault ρ β} {language : UInt8 → β → Bytes → Prop}
    (other : ∀ byte, Recognises (next byte) (language byte)) :
    Recognises (ByteSource.next >>= next) fun result bytes =>
      ∃ byte rest, bytes = byte :: rest ∧ language byte result rest := by
  refine (recognises_next.bind other).congr fun result bytes => ?_
  constructor
  · rintro ⟨byte, _, rest, rfl, there, rfl⟩
    exact ⟨byte, rest, rfl, there⟩
  · rintro ⟨byte, rest, rfl, there⟩
    exact ⟨byte, [byte], rest, rfl, there, rfl⟩

/-- A choice recognises what the part recognises that is chosen. -/
theorem Recognises.ite {condition : Prop} [Decidable condition] {yes no : EStateM Fault ρ α}
    {language language' : α → Bytes → Prop} (one : Recognises yes language)
    (other : Recognises no language') :
    Recognises (if condition then yes else no) fun value bytes =>
      if condition then language value bytes else language' value bytes := by
  split
  next => exact one
  next => exact other

/-- A number of items, one after another. -/
def Sequence (item : Bytes → Prop) (count : Nat) (bytes : Bytes) : Prop :=
  ∃ items : List Bytes, items.length = count ∧ (∀ each ∈ items, item each) ∧ bytes = items.flatten

/-- Repetitions recognise a sequence of items. -/
theorem recognises_times {step : EStateM Fault ρ Unit} {item : Bytes → Prop}
    (recognises : Recognises step fun _ => item) (count : Nat) :
    Recognises (times count step) fun _ => Sequence item count := by
  induction count with
  | zero => exact (recognises_pure ()).congr fun _ bytes => by simp [Sequence]
  | succ count ih =>
    refine (recognises.bind fun _ => ih).congr fun _ bytes => ?_
    constructor
    · rintro ⟨_, front, _, here, ⟨items, rfl, there, rfl⟩, rfl⟩
      exact ⟨front :: items, rfl, List.forall_mem_cons.mpr ⟨here, there⟩, rfl⟩
    · rintro ⟨_ | ⟨front, items⟩, counted, each, rfl⟩
      · cases counted
      · obtain ⟨here, there⟩ := List.forall_mem_cons.mp each
        exact ⟨(), front, _, here, ⟨items, by simpa using counted, there, rfl⟩, rfl⟩

end CilCapture.Signature
