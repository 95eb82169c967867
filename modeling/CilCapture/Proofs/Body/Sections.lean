import CilCapture.Body.Method
import CilCapture.Proofs.Bytes
import CilCapture.Proofs.Outcome

/-!
# Sections of clauses

Reading goes by offsets, so what is read is said by what stands in the data from an offset on
(`numberAt_of_drop`). From numbers this is carried to clauses and from these to sections of either
form (`sectionAt_of_drop`): a section counts its bytes in one byte or in three, and the words of
its clauses are narrow or full. Sections that follow one another are read to the end of their chain
(`sectionsFrom_of_chain`).

The lemmas climb from a number to a chain, and each level is stated in the same form: where the
bytes of the thing stand in the data, it is read, and what follows it does not matter. Nothing is
said here about data that holds something else; that is `Truncation` and, for any data at all,
`Machine`.

A chain is walked with fuel. The length of the data is enough, since a section takes four bytes at
least (`length_lt_encodeChain`).
-/

namespace CilCapture.Body

/-! ## Numbers -/

/-- Behind a part of known length stands what follows it. -/
theorem drop_add_of_drop {data part rest : Bytes} {offset width : Nat}
    (there : data.drop offset = part ++ rest) (wide : part.length = width) :
    data.drop (offset + width) = rest := by
  rw [← List.drop_drop, there, ← wide, List.drop_left]

/-- A part that is there is inside the data. -/
theorem add_length_le_of_drop {data part rest : Bytes} {offset : Nat}
    (there : data.drop offset = part ++ rest) (some_byte : 0 < part.length) :
    offset + part.length ≤ data.length := by
  have length_eq := congrArg List.length there
  rw [List.length_drop, List.length_append] at length_eq
  omega

/-- Where a number is written it is read, up to the capacity of its width. -/
theorem numberAt_of_drop {width value offset : Nat} {data rest : Bytes}
    (there : data.drop offset = Bytes.ofNat width value ++ rest) :
    numberAt width offset data = .ok (value % Bytes.capacity width) := by
  rw [numberAt, there, Bytes.readNat_ofNat_append]

/-- A number that is read fits its width. -/
theorem numberAt_lt {width offset value : Nat} {data : Bytes}
    (found : numberAt width offset data = .ok value) : value < Bytes.capacity width := by
  unfold numberAt at found
  split at found
  next read =>
    cases found
    exact (Bytes.eq_of_readNat read).1
  next => cases found

/-- A word that fits its bytes is read in full. -/
theorem wordAt_of_drop {width offset : Nat} {word : UInt32} {data rest : Bytes}
    (fits : word.toNat < Bytes.capacity width)
    (there : data.drop offset = Bytes.ofNat width word.toNat ++ rest) :
    wordAt width offset data = .ok word := by
  rw [wordAt, numberAt_of_drop there, Nat.mod_eq_of_lt fits]
  exact congrArg Except.ok UInt32.ofNat_toNat

/-- From an offset on stand words, each in its own number of bytes. -/
def WordsAt (data : Bytes) : (offset : Nat) → (widths : List Nat) → List UInt32 → Prop
  | _, [], [] => True
  | offset, width :: widths, word :: words =>
    wordAt width offset data = .ok word ∧ WordsAt data (offset + width) widths words
  | _, _, _ => False

/-- Words one behind another, each in its own number of bytes. -/
def encodeWords (widths : List Nat) (words : List UInt32) : Bytes :=
  (List.zipWith (fun width word => Bytes.ofNat width word.toNat) widths words).flatten

/-- The fields of a clause are read one after the other where they are written, each with its own
width. -/
theorem wordsAt_of_drop {widths : List Nat} {words : List UInt32} {offset : Nat}
    {data rest : Bytes}
    (fit : List.Forall₂ (fun width word => word.toNat < Bytes.capacity width) widths words)
    (there : data.drop offset = encodeWords widths words ++ rest) :
    WordsAt data offset widths words := by
  induction fit generalizing offset with
  | nil => trivial
  | cons fits _ ih =>
    rw [encodeWords, List.zipWith_cons_cons, List.flatten_cons, List.append_assoc] at there
    exact ⟨wordAt_of_drop fits there, ih (drop_add_of_drop there (Bytes.length_ofNat _ _))⟩

/-! ## Clauses -/

/-- The two forms of a section. -/
inductive SectionForm where
  | small
  | fat
  deriving DecidableEq, Repr

namespace SectionForm

/-- How many bytes each word of a clause takes. -/
def widths : SectionForm → List Nat
  | small => [2, 2, 1, 2, 1, 4]
  | fat => [4, 4, 4, 4, 4, 4]

/-- How many bytes the size of the section takes. -/
def sizeWidth : SectionForm → Nat
  | small => 1
  | fat => 3

def clauseSize : SectionForm → Nat
  | small => smallClauseSize
  | fat => fatClauseSize

/-- What the form adds to the kind of the section. -/
def flag : SectionForm → Nat
  | small => 0
  | fat => fatSection

def clauseAt : SectionForm → Bytes → Nat → Except Fault Clause
  | small => smallClauseAt
  | fat => fatClauseAt

theorem clauseSize_pos (form : SectionForm) : 0 < form.clauseSize := by
  cases form <;> decide

end SectionForm

/-- The words of a clause fit the bytes that sections of a form have for them. -/
def Clause.Fits (clause : Clause) (form : SectionForm) : Prop :=
  List.Forall₂ (fun width word => word.toNat < Bytes.capacity width) form.widths clause.words

instance (clause : Clause) (form : SectionForm) : Decidable (clause.Fits form) :=
  inferInstanceAs (Decidable (List.Forall₂ _ _ _))

theorem Clause.fits_fat (clause : Clause) : clause.Fits .fat :=
  .cons clause.flags.toNat_lt (.cons clause.tryOffset.toNat_lt (.cons clause.tryLength.toNat_lt
    (.cons clause.handlerOffset.toNat_lt (.cons clause.handlerLength.toNat_lt
      (.cons clause.classOrFilter.toNat_lt .nil)))))

/-- The clause as a section of a form has it. -/
def Clause.encodeIn (form : SectionForm) (clause : Clause) : Bytes :=
  encodeWords form.widths clause.words

@[simp] theorem Clause.length_encodeIn (form : SectionForm) (clause : Clause) :
    (clause.encodeIn form).length = form.clauseSize := by
  cases form <;>
    simp [encodeIn, encodeWords, SectionForm.widths, words, SectionForm.clauseSize,
      smallClauseSize, fatClauseSize]

/-- Clauses of one form take equal room. -/
theorem length_flatten_encodeIn (form : SectionForm) (clauses : List Clause) :
    ((clauses.map (Clause.encodeIn form)).flatten).length = form.clauseSize * clauses.length := by
  induction clauses with
  | nil => rfl
  | cons clause clauses ih =>
    rw [List.map_cons, List.flatten_cons, List.length_append, Clause.length_encodeIn, ih,
      List.length_cons, Nat.mul_succ, Nat.add_comm]

/-- A clause that fits the form is read where it is written in that form. -/
theorem clauseAt_of_drop {form : SectionForm} {clause : Clause} {offset : Nat}
    {data rest : Bytes} (fits : clause.Fits form)
    (there : data.drop offset = clause.encodeIn form ++ rest) :
    form.clauseAt data offset = .ok clause := by
  have words := wordsAt_of_drop fits there
  cases form with
  | small =>
    obtain ⟨flags, tryOffset, tryLength, handlerOffset, handlerLength, classOrFilter, -⟩ := words
    rw [SectionForm.clauseAt, smallClauseAt, flags, tryOffset, tryLength, handlerOffset,
      handlerLength, classOrFilter]
    rfl
  | fat =>
    obtain ⟨flags, tryOffset, tryLength, handlerOffset, handlerLength, classOrFilter, -⟩ := words
    rw [SectionForm.clauseAt, fatClauseAt, flags, tryOffset, tryLength, handlerOffset,
      handlerLength, classOrFilter]
    rfl

/-- The clauses of a section are read in their order, each at a multiple of the clause size behind
the head. -/
theorem mapM_clauseAt_of_drop {form : SectionForm} {clauses : List Clause} {offset : Nat}
    {data rest : Bytes} (fit : ∀ clause ∈ clauses, clause.Fits form)
    (there : data.drop offset = (clauses.map (Clause.encodeIn form)).flatten ++ rest) :
    (List.range clauses.length).mapM (fun index =>
      form.clauseAt data (offset + form.clauseSize * index)) = .ok clauses := by
  rw [mapM_eq_ok_iff, List.forall₂_iff_get]
  refine ⟨List.length_range, fun index _ inside => ?_⟩
  have split : clauses = clauses.take index ++ clauses.get ⟨index, inside⟩ ::
      clauses.drop (index + 1) := by
    rw [List.get_eq_getElem, List.getElem_cons_drop, List.take_append_drop]
  rw [split, List.map_append, List.map_cons, List.flatten_append, List.flatten_cons,
    List.append_assoc, List.append_assoc] at there
  have before : ((clauses.take index).map (Clause.encodeIn form)).flatten.length =
      form.clauseSize * index := by
    rw [length_flatten_encodeIn, List.length_take, Nat.min_eq_left (Nat.le_of_lt inside)]
  rw [List.get_eq_getElem, List.getElem_range]
  exact clauseAt_of_drop (fit _ (List.getElem_mem inside)) (drop_add_of_drop there before)

/-! ## Sections -/

/-- A section of clauses that its size can count and its words can hold. -/
structure ClauseSection where
  form : SectionForm
  clauses : List Clause
  /-- Bits of the kind that no reader looks at. -/
  spare : Fin 32
  /-- What a small section has behind its size. -/
  reserved : Bytes
  fits : ∀ clause ∈ clauses, clause.Fits form
  few : 4 + form.clauseSize * clauses.length < Bytes.capacity form.sizeWidth
  reserved_length : form.sizeWidth + reserved.length = 3

namespace ClauseSection

def size (block : ClauseSection) : Nat := 4 + block.form.clauseSize * block.clauses.length

/-- The first byte of the section, which also says whether another one follows. -/
def kind (block : ClauseSection) (more : Bool) : Nat :=
  clauseSection + 2 * block.spare + block.form.flag + if more then moreSections else 0

/-- The kind and the size, in four bytes. -/
def head (block : ClauseSection) (more : Bool) : Bytes :=
  Bytes.ofNat 1 (block.kind more) ++ (Bytes.ofNat block.form.sizeWidth block.size ++ block.reserved)

def encode (block : ClauseSection) (more : Bool) : Bytes :=
  block.head more ++ (block.clauses.map (Clause.encodeIn block.form)).flatten

@[simp] theorem length_head (block : ClauseSection) (more : Bool) :
    (block.head more).length = 4 := by
  have := block.reserved_length
  simp only [head, List.length_append, Bytes.length_ofNat]
  omega

/-- A section is as long as its size field says. -/
@[simp] theorem length_encode (block : ClauseSection) (more : Bool) :
    (block.encode more).length = block.size := by
  rw [encode, List.length_append, length_head, length_flatten_encodeIn, size]

/-- Every section is a multiple of four long, which is why a chain that starts aligned stays
aligned. -/
theorem four_dvd_size (block : ClauseSection) : 4 ∣ block.size := by
  have four_dvd : 4 ∣ block.form.clauseSize := by cases block.form <;> decide
  exact Nat.dvd_add (Nat.dvd_refl 4) (Nat.dvd_mul_right_of_dvd four_dvd _)

/-- The kind of a section, with its form, its spare bits and whether more follow, is one byte. -/
theorem kind_lt (block : ClauseSection) (more : Bool) : block.kind more < 256 := by
  have := block.spare.isLt
  unfold kind
  cases block.form <;> cases more <;>
    simp only [SectionForm.flag, clauseSection, fatSection, moreSections, Bool.false_eq_true,
      if_true, if_false] <;> omega

/-- The flags of the kind say that there are clauses, in which form, and whether more follow. -/
theorem flags_kind (block : ClauseSection) (more : Bool) :
    hasSectionFlag (block.kind more) clauseSection = true ∧
      hasSectionFlag (block.kind more) fatSection = decide (block.form = .fat) ∧
      hasSectionFlag (block.kind more) moreSections = more := by
  have := block.spare.isLt
  unfold kind hasSectionFlag
  cases block.form <;> cases more <;>
    simp [SectionForm.flag, clauseSection, fatSection, moreSections] <;> omega

end ClauseSection

/-- A section is read as its head says, if the data goes on to its end. -/
theorem sectionAt_of_head {block : ClauseSection} {more : Bool} {cursor : Nat}
    {data rest : Bytes} (there : data.drop cursor = block.head more ++ rest) :
    sectionAt data cursor =
      if data.length < cursor + block.size then .error .outOfBounds
      else do
        let clauses ← (List.range block.clauses.length).mapM fun index =>
          block.form.clauseAt data (cursor + 4 + block.form.clauseSize * index)
        return some (clauses,
          if more then some (Bytes.alignFour (cursor + block.size)) else none) := by
  obtain ⟨holds, form_eq, more_eq⟩ := block.flags_kind more
  have room := add_length_le_of_drop there (by rw [block.length_head]; decide)
  rw [block.length_head] at room
  have large : ¬ block.size < 4 := Nat.not_lt.mpr (Nat.le_add_right _ _)
  have count_eq : (block.size - 4) / block.form.clauseSize = block.clauses.length := by
    rw [ClauseSection.size, Nat.add_sub_cancel_left,
      Nat.mul_div_cancel_left _ block.form.clauseSize_pos]
  simp only [ClauseSection.head, List.append_assoc] at there
  have header : numberAt 1 cursor data = .ok (block.kind more) := by
    rw [numberAt_of_drop there]
    exact congrArg Except.ok (Nat.mod_eq_of_lt (block.kind_lt more))
  have counted : numberAt block.form.sizeWidth (cursor + 1) data = .ok block.size := by
    rw [numberAt_of_drop (drop_add_of_drop there (Bytes.length_ofNat 1 _))]
    exact congrArg Except.ok (Nat.mod_eq_of_lt block.few)
  rw [sectionAt, if_neg (Nat.not_lt.mpr room)]
  -- The two branches of the reader on the form are the same reading in two widths.
  cases form : block.form <;>
    simp only [form, SectionForm.sizeWidth, SectionForm.clauseSize, SectionForm.clauseAt,
      reduceCtorEq, decide_false, decide_true] at form_eq counted count_eq ⊢ <;>
    simp only [header, bind_ok, holds, form_eq, more_eq, counted, large, false_or, count_eq,
      Bool.not_true, Bool.false_eq_true, if_true, if_false] <;>
    rfl

/-- The clauses of a section that stands in the data, and where the next one starts. -/
theorem sectionAt_of_drop {block : ClauseSection} {more : Bool} {cursor : Nat}
    {data rest : Bytes} (there : data.drop cursor = block.encode more ++ rest) :
    sectionAt data cursor = .ok (some (block.clauses,
      if more then some (Bytes.alignFour (cursor + block.size)) else none)) := by
  have room := add_length_le_of_drop there (by rw [block.length_encode, ClauseSection.size]; omega)
  rw [block.length_encode] at room
  rw [ClauseSection.encode, List.append_assoc] at there
  have behind := drop_add_of_drop there (block.length_head more)
  rw [sectionAt_of_head there, if_neg (Nat.not_lt.mpr room),
    mapM_clauseAt_of_drop block.fits behind]
  rfl

/-- A section is refused that is cut off behind its head. -/
theorem sectionAt_of_truncated {block : ClauseSection} {more : Bool} {cursor : Nat}
    {data : Bytes} (there : data.drop cursor <+: block.encode more)
    (headed : cursor + 4 ≤ data.length) (short : data.length < cursor + block.size) :
    sectionAt data cursor = .error .outOfBounds := by
  have head_le : (block.head more).length ≤ (data.drop cursor).length := by
    rw [block.length_head, List.length_drop]
    omega
  obtain ⟨rest, head_eq⟩ :=
    List.prefix_of_prefix_length_le (List.prefix_append _ _) there head_le
  rw [sectionAt_of_head head_eq.symm, if_pos short]

/-! ## Chains -/

/-- A section and those that follow it, each of which says so of the next one. -/
def encodeChain (first : ClauseSection) : List ClauseSection → Bytes
  | [] => first.encode false
  | next :: rest => first.encode true ++ encodeChain next rest

/-- A chain has more bytes than sections, so the length of the data is enough fuel to walk it. -/
theorem length_lt_encodeChain (first : ClauseSection) (others : List ClauseSection) :
    others.length < (encodeChain first others).length := by
  induction others generalizing first with
  | nil =>
    rw [encodeChain, first.length_encode, ClauseSection.size, List.length_nil]
    omega
  | cons next others ih =>
    have := ih next
    rw [encodeChain, List.length_append, first.length_encode, ClauseSection.size, List.length_cons]
    omega

/-- A chain of sections is read off to its end, with the clauses of all of them in order. The
induction is on the sections that follow, with one unit of fuel for each. -/
private theorem sectionsFrom_of_lt {first : ClauseSection} {others : List ClauseSection}
    {fuel cursor : Nat} {data rest : Bytes} (enough : others.length < fuel)
    (aligned : 4 ∣ cursor) (there : data.drop cursor = encodeChain first others ++ rest) :
    sectionsFrom data fuel cursor = .ok ((first :: others).flatMap (·.clauses)) := by
  induction others generalizing first fuel cursor with
  | nil =>
    cases fuel with
    | zero => cases enough
    | succ fuel =>
      rw [sectionsFrom, sectionAt_of_drop there, List.flatMap_singleton]
      rfl
  | cons next others ih =>
    cases fuel with
    | zero => cases enough
    | succ fuel =>
      rw [encodeChain, List.append_assoc] at there
      have behind := drop_add_of_drop there (first.length_encode true)
      have aligned' := Nat.dvd_add aligned first.four_dvd_size
      have tail := ih (Nat.lt_of_succ_lt_succ enough) aligned' behind
      rw [sectionsFrom, sectionAt_of_drop there, if_pos rfl, Bytes.alignFour_eq_self aligned',
        List.flatMap_cons]
      simp only [bind_ok, tail]
      rfl

/-- The clauses of a chain of sections, from a multiple of four on, one section after another. -/
theorem sectionsFrom_of_chain {first : ClauseSection} {others : List ClauseSection}
    {cursor : Nat} {data rest : Bytes} (aligned : 4 ∣ cursor)
    (there : data.drop cursor = encodeChain first others ++ rest) :
    sectionsFrom data data.length cursor = .ok ((first :: others).flatMap (·.clauses)) := by
  have some_byte := length_lt_encodeChain first others
  have room := add_length_le_of_drop there (Nat.zero_lt_of_lt some_byte)
  exact sectionsFrom_of_lt (by omega) aligned there

end CilCapture.Body
