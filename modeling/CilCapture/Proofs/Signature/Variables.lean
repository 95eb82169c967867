import CilCapture.Proofs.Signature.Agreement
import CilCapture.Signature.Locals

/-!
# Variables read one by one

Reading local variables is the reading of one encoding, repeated: `readLocals` and `splitLocals` are
put together from it by steps that only bind (`readLocals_eq`, `splitLocals_eq`). What is shown of
the parts then holds of the whole; so sources that mirror each other in their single bytes do in
their variables (`mirrors_readLocals`).

A signature is taken apart by copying its types while they are read. A cursor needs no copies: it
passes over a type and its places tell which bytes of the string the type took. Both ways come to
the same variables and the same faults (`splitLocals_eq_sliceLocals`).

The slices are what one would do without a recording: note the place, walk, note the place again,
and cut between the two. That this is the same is one application of the agreement of readers to
each type (`readEncoding_cursor`), and the rest is that sequences of equal steps are equal.
-/

namespace CilCapture.Signature

/-! ## One encoding after another -/

section

variable {ρ : Type} [ByteSource ρ]

/-- The next type encoding, without what was read of one that fails. -/
def readEncoding : EStateM Fault ρ Bytes := fun source =>
  match skipType (ρ := Recording ρ) ⟨source, []⟩ with
  | .ok () recording => .ok recording.noted.reverse recording.source
  | .error fault recording => .error fault recording.source

/-- Of some encodings the first is read, then the others; a fault tells how many there were before
it. -/
theorem readEncodings_succ (count : Nat) :
    readEncodings (ρ := ρ) (count + 1) = (do
      let encoding ← EStateM.adaptExcept (Prod.mk 0) readEncoding
      let encodings ← EStateM.adaptExcept (Prod.map (· + 1) id) (readEncodings count)
      return encoding :: encodings : EStateM (Nat × Fault) ρ (List Bytes)) := by
  funext source
  rw [readEncodings]
  simp only [bind, EStateM.bind, EStateM.adaptExcept, readEncoding, copyType]
  cases skipType (ρ := Recording ρ) ⟨source, []⟩ with
  | ok _ recording =>
    dsimp only
    cases readEncodings count recording.source <;> rfl
  | error fault recording => rfl

/-- Locals are read by reading their encodings and putting them together. -/
theorem readLocals_eq (count : Nat) :
    readLocals (ρ := ρ) count = (do
      let encodings ← EStateM.adaptExcept (fun failed => inLocal failed.1 failed.2)
        (readEncodings count)
      ofExcept (buildLocals count encodings.flatten) : EStateM Fault ρ Bytes) := by
  funext source
  simp only [readLocals, bind, EStateM.bind, EStateM.adaptExcept]
  cases readEncodings count source with
  | ok encodings after =>
    dsimp only
    cases buildLocals count encodings.flatten <;> rfl
  | error failed after => rfl

/-- A number of variables, and the encodings of so many. -/
def readVariables : EStateM Fault ρ (Nat × List Bytes) := do
  let count ← readCompressed
  let encodings ← EStateM.adaptExcept Prod.snd (readEncodings count)
  return (count, encodings)

/-- The variables that a signature declares. -/
def readApart : EStateM Fault ρ (Nat × List Bytes) := do
  let lead ← ByteSource.next (ρ := ρ)
  if lead ≠ localsLead then throw (.malformed (.notLocals lead))
  readVariables

end

/-- What a signature that was read is taken apart into, unless bytes are left. -/
def checkEnd : EStateM.Result Fault Cursor (Nat × List Bytes) → Except Fault (List Bytes)
  | .error fault _ => .error fault
  | .ok (count, encodings) cursor =>
    if cursor.hasMore then .error (.malformed (.trailingBytes cursor.remaining count))
    else .ok encodings

/-- A signature is taken apart on a cursor that has to end with it. -/
theorem splitLocals_eq (blob : Bytes) :
    splitLocals blob = checkEnd (readApart (Cursor.ofBytes blob)) := by
  unfold splitLocals readApart readVariables
  simp only [bind, EStateM.bind]
  rw [show ByteSource.next (ρ := Cursor) = Cursor.next from rfl]
  cases Cursor.next (Cursor.ofBytes blob) with
  | error fault cursor => rfl
  | ok lead cursor =>
    dsimp only
    by_cases other : lead ≠ localsLead
    · rw [if_pos other, if_pos other]
      rfl
    · rw [if_neg other, if_neg other]
      unfold EStateM.bind EStateM.adaptExcept
      cases readCompressed cursor with
      | error fault cursor => rfl
      | ok count cursor =>
        dsimp only
        cases readEncodings count cursor <;> rfl

/-! ## Sources side by side -/

section

variable {ρ σ : Type} [ByteSource ρ] [ByteSource σ] {R : ρ → σ → Prop}

/-- Recordings of related sources in which the same is noted. -/
def Abreast (R : ρ → σ → Prop) (recording : Recording ρ) (twin : Recording σ) : Prop :=
  R recording.source twin.source ∧ recording.noted = twin.noted

/-- A recording reads alike where its source does. -/
theorem mirrors_abreast (mirrors : Mirrors R ByteSource.next ByteSource.next) :
    Mirrors (Abreast R) ByteSource.next ByteSource.next := by
  rintro ⟨source, noted⟩ ⟨other, _⟩ ⟨related, rfl⟩
  show resultOf (Recording.next _) = resultOf (Recording.next _) ∧
    Abreast R (finalState (Recording.next _)) (finalState (Recording.next _))
  unfold Recording.next
  rcases mirrors.ends related with ⟨byte, after, after', taken, taken', there⟩ |
    ⟨fault, after, after', taken, taken', there⟩ <;> rw [taken, taken']
  · exact ⟨rfl, there, rfl⟩
  · exact ⟨rfl, there, rfl⟩

/-- Encodings are read alike where bytes are. -/
theorem mirrors_readEncoding (mirrors : Mirrors R ByteSource.next ByteSource.next) :
    Mirrors R readEncoding readEncoding := by
  intro source other related
  have start : Abreast R ⟨source, []⟩ ⟨other, []⟩ := ⟨related, rfl⟩
  unfold readEncoding
  rcases (mirrors_skipType (mirrors_abreast mirrors)).ends start with
    ⟨_, after, after', taken, taken', there, noted_eq⟩ |
    ⟨fault, after, after', taken, taken', there, -⟩ <;> rw [taken, taken']
  · exact ⟨congrArg Except.ok (congrArg List.reverse noted_eq), there⟩
  · exact ⟨rfl, there⟩

/-- Any number of encodings are read alike, with the same count in a fault. -/
theorem mirrors_readEncodings (mirrors : Mirrors R ByteSource.next ByteSource.next) (count : Nat) :
    Mirrors R (readEncodings (ρ := ρ) count) (readEncodings (ρ := σ) count) := by
  induction count with
  | zero => exact .pure []
  | succ count ih =>
    rw [readEncodings_succ, readEncodings_succ]
    exact ((mirrors_readEncoding mirrors).adapt _).bind fun _ => (ih.adapt _).bind fun _ => .pure _

/-- Locals are read alike where bytes are. -/
theorem mirrors_readLocals (mirrors : Mirrors R ByteSource.next ByteSource.next) (count : Nat) :
    Mirrors R (readLocals (ρ := ρ) count) (readLocals (ρ := σ) count) := by
  rw [readLocals_eq, readLocals_eq]
  refine ((mirrors_readEncodings mirrors count).adapt _).bind fun encodings => ?_
  cases buildLocals count encodings.flatten with
  | ok blob => exact .pure blob
  | error fault => exact .throw fault

/-- Signatures are taken apart alike where bytes are read alike. -/
theorem mirrors_readApart (mirrors : Mirrors R ByteSource.next ByteSource.next) :
    Mirrors R (readApart (ρ := ρ)) (readApart (ρ := σ)) := by
  have rest : Mirrors R (readVariables (ρ := ρ)) (readVariables (ρ := σ)) :=
    (mirrors_readCompressed mirrors).bind fun count =>
      ((mirrors_readEncodings mirrors count).adapt _).bind fun _ => .pure _
  exact mirrors.bind fun lead => .ite (.bind (.throw _) fun _ => rest) rest

end

/-! ## Slices of a string -/

/-- The next `count` types that a cursor passes over, each as the bytes between its places before
and behind it. -/
def sliceEach : (count : Nat) → EStateM Fault Cursor (List Bytes)
  | 0 => pure []
  | count + 1 => do
    let before ← get
    Reader.passType
    let behind ← get
    let encodings ← sliceEach count
    return between before.data before.position behind.position :: encodings

/-- The variables of a complete signature as a cursor finds them by itself: with its own integers,
its own walk over types and no copies. -/
def sliceLocals (blob : Bytes) : Except Fault (List Bytes) :=
  checkEnd ((do
    let lead ← ByteSource.next
    if lead ≠ localsLead then throw (.malformed (.notLocals lead))
    let count ← Reader.integer
    let encodings ← sliceEach count
    return (count, encodings) : EStateM Fault Cursor (Nat × List Bytes)) (Cursor.ofBytes blob))

/-- Reading an encoding is copying a type, the copy thrown away if that fails. -/
theorem readEncoding_eq {ρ : Type} [ByteSource ρ] (source : ρ) :
    readEncoding source =
      match copyType source with
      | (.ok () after, encoding) => .ok encoding after
      | (.error fault after, _) => .error fault after := by
  unfold readEncoding copyType
  cases skipType (ρ := Recording ρ) ⟨source, []⟩ <;> rfl

/-- What a cursor copies of a type is the slice between its places. -/
theorem readEncoding_cursor :
    readEncoding = (do
      let before ← get
      Reader.passType
      let behind ← get
      return between before.data before.position behind.position : EStateM Fault Cursor Bytes) := by
  funext cursor
  have copies : CopiesPassed cursor.data Cursor.position cursor :=
    (shows_cursor cursor.data).copiesPassed Cursor.integer_eq rfl
  have copied : copyType cursor = (Reader.passType cursor,
      between cursor.data cursor.position (finalState (Reader.passType cursor)).position) :=
    Prod.ext copies.same copies.bytes
  have before : (get : EStateM Fault Cursor Cursor) cursor = .ok cursor cursor := rfl
  rw [readEncoding_eq, copied, run_bind_of_ok before]
  cases passed : Reader.passType cursor with
  | ok => rw [run_bind_of_ok passed]; rfl
  | error => rw [run_bind_of_error passed]

/-- A failure that is told in other words is told so after any first part. -/
theorem adaptExcept_bind {ε ε' σ α β : Type} (tell : ε → ε') (step : EStateM ε σ α)
    (next : α → EStateM ε σ β) :
    EStateM.adaptExcept tell (step >>= next) =
      EStateM.adaptExcept tell step >>= fun value => EStateM.adaptExcept tell (next value) := by
  funext state
  simp only [bind, EStateM.bind, EStateM.adaptExcept]
  cases step state <;> rfl

/-- Telling a failure in other words twice is telling it once, in the last ones. -/
theorem adaptExcept_adaptExcept {ε ε' ε'' σ α : Type} (tell : ε → ε') (tell' : ε' → ε'')
    (step : EStateM ε σ α) :
    EStateM.adaptExcept tell' (EStateM.adaptExcept tell step) =
      EStateM.adaptExcept (tell' ∘ tell) step := by
  funext state
  simp only [EStateM.adaptExcept]
  cases step state <;> rfl

theorem adaptExcept_id {ε σ α : Type} (step : EStateM ε σ α) :
    EStateM.adaptExcept id step = step := by
  funext state
  simp only [EStateM.adaptExcept]
  cases step state <;> rfl

/-- Slicing and copying come to the same encodings; a cursor does not count the ones before a
fault. -/
theorem sliceEach_eq (count : Nat) :
    sliceEach count = EStateM.adaptExcept Prod.snd (readEncodings count) := by
  induction count with
  | zero => rfl
  | succ count ih =>
    have first : EStateM.adaptExcept Prod.snd (EStateM.adaptExcept (Prod.mk 0) readEncoding) =
        (readEncoding : EStateM Fault Cursor Bytes) := by
      rw [adaptExcept_adaptExcept]
      exact adaptExcept_id readEncoding
    have rest (encoding : Bytes) (others : EStateM (Nat × Fault) Cursor (List Bytes)) :
        EStateM.adaptExcept Prod.snd (do
          let encodings ← EStateM.adaptExcept (Prod.map (· + 1) id) others
          return encoding :: encodings : EStateM (Nat × Fault) Cursor (List Bytes)) = (do
          let encodings ← EStateM.adaptExcept Prod.snd others
          return encoding :: encodings : EStateM Fault Cursor (List Bytes)) := by
      rw [adaptExcept_bind, adaptExcept_adaptExcept]
      rfl
    rw [readEncodings_succ, adaptExcept_bind, first, readEncoding_cursor, sliceEach, ih]
    simp only [bind_assoc, pure_bind]
    refine bind_congr fun before => bind_congr fun _ => bind_congr fun behind => ?_
    exact (rest _ _).symm

/-- A signature is taken apart as a cursor would by itself. -/
theorem splitLocals_eq_sliceLocals (blob : Bytes) : splitLocals blob = sliceLocals blob := by
  have integer_eq : Reader.integer (ρ := Cursor) = readCompressed := Cursor.integer_eq
  rw [splitLocals_eq, sliceLocals, integer_eq]
  simp only [sliceEach_eq]
  rfl

end CilCapture.Signature
