import CilCapture.Proofs.Body.Raw
import CilCapture.Proofs.Machine.Stream

/-!
# Reading a body by machine

A machine reads the sections of a body in a loop that ends when the data or the section says so,
at places that sizes in the data lead to, and takes slices and sums wherever the data sends it. For
data of a length that signed words leave room for it always comes to what the reader comes to: it
ends, and does not break down (`hostile_input`). The loop ends because every section takes the
cursor on (`lt_of_sectionTurn`); and since sections do not overlap, their clauses take no more bytes
than there are (`length_clauses_le`).

The definitions are by machine what the reader's are on numbers, field by field and in the order in
which the bytes are looked at. So a proof of agreement is a proof that no sum, slice or index on the
way can break down, and the sizes that data may declare are where this has to be argued: they are
bounded by the data before anything is added to them.

What is contained in the data is shown of the reader and carried over by the agreement
(`contained_of_parse`).
-/

namespace CilCapture

namespace Machine

open Body

/-! ## Sections -/

/-- The word of `width` bytes at a place and the place behind it. -/
def readWord (width : Nat) (data : Bytes) (place : Nat) : Machine (UInt32 × Nat) := do
  let (value, place) ← readAt width data place
  return (UInt32.ofNat value, place)

end Machine

namespace Body.SectionForm

/-- The form that the first byte of a section tells. -/
def ofHeader (header : Nat) : SectionForm :=
  if hasSectionFlag header fatSection then fat else small

/-- Bytes of the flags and of an offset in a clause. -/
def offsetWidth : SectionForm → Nat
  | small => 2
  | fat => 4

/-- Bytes of a length in a clause. -/
def lengthWidth : SectionForm → Nat
  | small => 1
  | fat => 4

end Body.SectionForm

namespace Machine

open Body

def readClause (form : SectionForm) (data : Bytes) (place : Nat) : Machine (Clause × Nat) := do
  let (flags, place) ← readWord form.offsetWidth data place
  let (tryOffset, place) ← readWord form.offsetWidth data place
  let (tryLength, place) ← readWord form.lengthWidth data place
  let (handlerOffset, place) ← readWord form.offsetWidth data place
  let (handlerLength, place) ← readWord form.lengthWidth data place
  let (classOrFilter, place) ← readWord 4 data place
  return ({ flags, tryOffset, tryLength, handlerOffset, handlerLength, classOrFilter }, place)

/-- So many clauses from a place on, behind those that were read before. -/
def readClauses (form : SectionForm) (data : Bytes) :
    (count place : Nat) → List Clause → Machine (List Clause)
  | 0, _, clauses => return clauses
  | count + 1, place, clauses => do
    let (clause, place) ← readClause form data place
    readClauses form data count place (clauses ++ [clause])

/-- The size of the section at the cursor; a fat section has it in the upper bytes of a word. -/
def sectionSize (data : Bytes) (cursor : Nat) : SectionForm → Machine Nat
  | .fat => do
    let word ← read 4 (← sliceFrom data cursor)
    return word / 256
  | .small => do read 1 (← sliceFrom data (← add cursor 1))

/-- Where the loop over sections stands: the clauses so far, and the cursor if it goes on. -/
structure Walk where
  clauses : List Clause
  cursor : Option Nat

/-- One turn of the loop over sections. -/
def sectionTurn (data : Bytes) (cursor : Nat) (clauses : List Clause) : Machine Walk := do
  if data.length < (← add cursor 4) then return ⟨clauses, none⟩
  let header ← read 1 (← sliceFrom data cursor)
  if !hasSectionFlag header clauseSection then return ⟨clauses, none⟩
  let form := SectionForm.ofHeader header
  let size ← sectionSize data cursor form
  if size < 4 then throw (.fault .outOfBounds)
  if data.length < (← add cursor size) then throw (.fault .outOfBounds)
  let place ← add cursor 4
  let count := (← sub size 4) / form.clauseSize
  let clauses ← readClauses form data count place clauses
  if !hasSectionFlag header moreSections then return ⟨clauses, none⟩
  let next ← add (← add cursor size) 3
  return ⟨clauses, some (next / 4 * 4)⟩

/-- The loop over sections: takes turns as long as there is a cursor. -/
def Walk.finish (data : Bytes) (walk : Walk) : Machine (List Clause) := do
  match walk.cursor with
  | none => return walk.clauses
  | some cursor =>
    let next ← sectionTurn data cursor walk.clauses
    next |>.finish data
partial_fixpoint

/-- The walk over sections ends where there is no cursor. -/
theorem Walk.finish_none {data : Bytes} {clauses : List Clause} :
    finish data ⟨clauses, none⟩ = pure clauses := by
  rw [finish]

/-- With a cursor the walk takes a turn and goes on from where that stands. It is a fixpoint of this
equation. -/
theorem Walk.finish_some {data : Bytes} {clauses : List Clause} {cursor : Nat} :
    finish data ⟨clauses, some cursor⟩ = sectionTurn data cursor clauses >>= finish data := by
  rw [finish]

/-! ## Bodies -/

def parseTiny (first : UInt8) (data : Bytes) : Machine RawBody := do
  let size := first.toNat / 4
  if data.length < (← add size 1) then throw (.fault .outOfBounds)
  let code ← slice data 1 (← add size 1)
  return ⟨8, false, .null, 1, code, []⟩

/-- The clauses behind the code, if the header says that there are sections. -/
def readBehind (data : Bytes) (start headerSize size : Nat) : Machine (List Clause) :=
  if start / 0x8 % 2 = 1 then do
    let cursor ← add (← add headerSize size) 3
    Walk.finish data ⟨[], some (cursor / 4 * 4)⟩
  else return []

def parseFat (data : Bytes) : Machine RawBody := do
  if data.length < fatHeaderSize then throw (.fault .outOfBounds)
  let start ← read 2 data
  let headerSize ← mul 0x10000 (start / 0x1000) 4
  let size ← read 4 (← sliceFrom data 4)
  if headerSize < fatHeaderSize then throw (.fault .outOfBounds)
  if data.length < (← add size headerSize) then throw (.fault .outOfBounds)
  let clauses ← readBehind data start headerSize size
  let maxStack ← read 2 (← sliceFrom data 2)
  let token ← read 4 (← sliceFrom data 8)
  let code ← slice data headerSize (← add headerSize size)
  return {
    maxStack := UInt16.ofNat maxStack
    initLocals := start / 0x10 % 2 == 1
    localsToken := ⟨UInt32.ofNat token⟩
    headerSize
    code
    clauses }

def parse (data : Bytes) : Machine RawBody := do
  if data.isEmpty then throw (.fault (.malformed .emptyBody))
  let first := UInt8.ofNat (← read 1 data)
  if first.toNat % 4 = 2 then parseTiny first data
  else if first.toNat % 4 = 3 then parseFat data
  else throw (.fault (.malformed (.headerFormat first)))

/-! ## Regions -/

def startIndex (offsets : List Nat) (offset : Nat) : Machine Nat := do
  let starts ← slice offsets 0 (offsets.length - 1)
  match Il.boundary? starts offset with
  | some index => return index
  | none => throw (.fault (.malformed (.clauseStart offset)))

def endIndex (offsets : List Nat) (start length : UInt32) : Machine (Option Nat) := do
  let finish ← add start.toNat length.toNat
  let size := layoutSize offsets
  if finish = size then return none
  if size < finish then throw (.fault (.malformed (.clauseEnd finish size)))
  some <$> startIndex offsets (UInt32.ofNat finish).toNat

def handlerOf (clause : Clause) (offsets : List Nat) : Machine Handler :=
  match clause.kind with
  | .filter => .filter <$> startIndex offsets clause.classOrFilter.toNat
  | .finallyHandler => return .finallyHandler
  | .faultHandler => return .faultHandler
  | .typed => return .typed ⟨clause.classOrFilter⟩

def regionOf (offsets : List Nat) (clause : Clause) : Machine Region := do
  let handler ← handlerOf clause offsets
  let tryStart ← startIndex offsets clause.tryOffset.toNat
  let tryEnd ← endIndex offsets clause.tryOffset clause.tryLength
  let handlerStart ← startIndex offsets clause.handlerOffset.toNat
  let handlerEnd ← endIndex offsets clause.handlerOffset clause.handlerLength
  return { handler, tryStart, tryEnd, handlerStart, handlerEnd }

def decodeBody (data : Bytes) : Machine MethodBody := do
  let raw ← parse data
  let instructions ← decodeStream raw.code
  let offsets ← layoutOf instructions
  let regions ← raw.clauses.mapM (regionOf offsets)
  return {
    maxStack := raw.maxStack
    initLocals := raw.initLocals
    localSignature := none
    instructions
    regions }

/-! ## Numbers -/

section

variable {data : Bytes}

/-- A number is read at a place that cannot be out of range, with the place behind it. -/
theorem follows_numberAt {width offset : Nat} (some_byte : 0 < width)
    (short : data.length < Address.limit) :
    Follows (fun made value => made = (value, offset + width)) (readAt width data offset)
      (numberAt width offset data) := by
  have number_eq : numberAt width offset data = (do
      let taken ← Il.takeNumber width (data.drop offset)
      return taken.1) := by
    rw [numberAt, Il.takeNumber]
    cases Bytes.readNat width (data.drop offset) <;> rfl
  rw [number_eq, ← bind_pure (readAt _ _ _)]
  refine (follows_takeNumber some_byte short).bind ?_
  rintro _ taken ⟨rfl, -, -⟩ -
  exact .pure rfl

/-- Where there are bytes enough, a number is read from a slice as at its place. -/
theorem exists_number {width offset : Nat} (some_byte : 0 < width)
    (short : data.length < Address.limit) (inside : offset + width ≤ data.length) :
    ∃ value, numberAt width offset data = .ok value ∧ read width (data.drop offset) = pure value ∧
      value < Bytes.capacity width := by
  have found : numberAt width offset data =
      .ok (Bytes.toNat ((data.drop offset).take width)) := by
    rw [numberAt, Bytes.readNat_eq, List.length_drop, if_pos (by omega)]
  refine ⟨_, found, ?_, numberAt_lt found⟩
  have below : (data.drop offset).length < Address.limit := by
    rw [List.length_drop]
    omega
  -- The slice has at its front what the data has at the offset.
  have front : numberAt width 0 (data.drop offset) = numberAt width offset data := rfl
  rw [read]
  rcases @follows_numberAt (data.drop offset) width 0 some_byte below with
    ⟨_, value, rfl, made_eq, value_eq⟩ | ⟨fault, -, failed⟩
  · rw [made_eq]
    cases found.symm.trans (front.symm.trans value_eq)
    rfl
  · cases found.symm.trans (front.symm.trans failed)

/-- A word is read at a place that cannot be out of range, with the place behind it. -/
theorem follows_wordAt {width offset : Nat} (some_byte : 0 < width)
    (short : data.length < Address.limit) :
    Follows (fun made word => made = (word, offset + width)) (readWord width data offset)
      (wordAt width offset data) := by
  rw [wordAt, map_eq_pure_bind]
  refine (follows_numberAt some_byte short).bind ?_
  rintro _ value rfl -
  exact .pure rfl

/-! ## Clauses are read alike -/

/-- The words of a clause in sections of both forms. -/
theorem clauseAt_eq (form : SectionForm) (offset : Nat) :
    form.clauseAt data offset = (do
      let flags ← wordAt form.offsetWidth offset data
      let offset := offset + form.offsetWidth
      let tryOffset ← wordAt form.offsetWidth offset data
      let offset := offset + form.offsetWidth
      let tryLength ← wordAt form.lengthWidth offset data
      let offset := offset + form.lengthWidth
      let handlerOffset ← wordAt form.offsetWidth offset data
      let offset := offset + form.offsetWidth
      let handlerLength ← wordAt form.lengthWidth offset data
      let offset := offset + form.lengthWidth
      let classOrFilter ← wordAt 4 offset data
      return { flags, tryOffset, tryLength, handlerOffset, handlerLength, classOrFilter }) := by
  cases form <;> rfl

/-- A clause is read field by field, with the place behind it. -/
theorem follows_clauseAt (short : data.length < Address.limit) (form : SectionForm)
    (place : Nat) :
    Follows (fun made clause => made = (clause, place + form.clauseSize))
      (readClause form data place) (form.clauseAt data place) := by
  have offset_pos : 0 < form.offsetWidth := by cases form <;> decide
  have length_pos : 0 < form.lengthWidth := by cases form <;> decide
  have place_eq : place + form.offsetWidth + form.offsetWidth + form.lengthWidth +
      form.offsetWidth + form.lengthWidth + 4 = place + form.clauseSize := by
    cases form <;> rfl
  rw [clauseAt_eq]
  refine (follows_wordAt offset_pos short).bind ?_
  rintro _ flags rfl -
  refine (follows_wordAt offset_pos short).bind ?_
  rintro _ tryOffset rfl -
  refine (follows_wordAt length_pos short).bind ?_
  rintro _ tryLength rfl -
  refine (follows_wordAt offset_pos short).bind ?_
  rintro _ handlerOffset rfl -
  refine (follows_wordAt length_pos short).bind ?_
  rintro _ handlerLength rfl -
  refine (follows_wordAt (by decide) short).bind ?_
  rintro _ classOrFilter rfl -
  rw [place_eq]
  exact .pure rfl

/-- The loop over the clauses of a section reads them one behind the other. The induction is on the
count, with the clauses so far in front. -/
theorem follows_clauses (short : data.length < Address.limit) (form : SectionForm)
    (count place : Nat) (clauses : List Clause) :
    Follows (fun made more => made = clauses ++ more) (readClauses form data count place clauses)
      ((List.range count).mapM fun index =>
        form.clauseAt data (place + form.clauseSize * index)) := by
  induction count generalizing place clauses with
  | zero => exact .pure (List.append_nil clauses).symm
  | succ count ih =>
    have rest_eq : (List.range count).mapM ((fun index =>
          form.clauseAt data (place + form.clauseSize * index)) ∘ Nat.succ) =
        (List.range count).mapM fun index =>
          form.clauseAt data (place + form.clauseSize + form.clauseSize * index) := by
      refine congrArg (fun step => (List.range count).mapM step) (funext fun index => ?_)
      have place_eq : place + form.clauseSize * (index + 1) =
          place + form.clauseSize + form.clauseSize * index := by
        rw [Nat.mul_succ]
        omega
      exact congrArg (form.clauseAt data) place_eq
    rw [List.range_succ_eq_map, List.mapM_cons, List.mapM_map, rest_eq, Nat.mul_zero]
    refine (follows_clauseAt short form place).bind ?_
    rintro _ clause rfl -
    dsimp only
    rw [← bind_pure (readClauses _ _ _ _ _)]
    refine (ih _ _).bind ?_
    rintro _ more rfl -
    exact .pure (List.append_assoc _ _ _)

/-! ## Sections are read alike -/

/-- The size of a section is in the upper bytes of its first word. -/
theorem exists_sectionSize {cursor : Nat} (short : data.length < Address.limit)
    (headed : cursor + 4 ≤ data.length) (form : SectionForm) :
    ∃ size, numberAt form.sizeWidth (cursor + 1) data = .ok size ∧
      sectionSize data cursor form = pure size ∧ size < 0x1000000 := by
  cases form with
  | small =>
    obtain ⟨size, found, made, small⟩ := @exists_number data 1 (cursor + 1) (by decide) short
      (by omega)
    refine ⟨size, found, ?_, Nat.lt_trans small (by decide)⟩
    rw [sectionSize, add_of_lt (by omega), pure_bind, sliceFrom_of_le (by omega), pure_bind, made]
  | fat =>
    obtain ⟨size, found, -, small⟩ := @exists_number data 3 (cursor + 1) (by decide) short
      (by omega)
    obtain ⟨word, found', made, -⟩ := @exists_number data 4 cursor (by decide) short headed
    refine ⟨size, found, ?_, Nat.lt_of_lt_of_le small (by decide)⟩
    have word_eq : word / 256 = size := by
      have split : data.drop cursor = data[cursor] :: data.drop (cursor + 1) :=
        List.drop_eq_getElem_cons (by omega)
      rw [numberAt, split, Bytes.readNat] at found'
      rw [numberAt] at found
      cases rest : Bytes.readNat 3 (data.drop (cursor + 1)) with
      | none => rw [rest] at found; cases found
      | some taken =>
        rw [rest] at found found'
        cases found
        cases found'
        have := data[cursor].toNat_lt
        omega
    rw [sectionSize, sliceFrom_of_le (by omega), pure_bind, made, pure_bind, word_eq]

/-- A section that has a head is read as its header and its size say. -/
theorem sectionAt_of_header {cursor header size : Nat} (headed : cursor + 4 ≤ data.length)
    (header_eq : numberAt 1 cursor data = .ok header)
    (size_eq : numberAt (SectionForm.ofHeader header).sizeWidth (cursor + 1) data = .ok size) :
    sectionAt data cursor =
      if !hasSectionFlag header clauseSection then .ok none
      else if size < 4 ∨ data.length < cursor + size then .error .outOfBounds
      else do
        let clauses ← (List.range ((size - 4) / (SectionForm.ofHeader header).clauseSize)).mapM
          fun index => (SectionForm.ofHeader header).clauseAt data
            (cursor + 4 + (SectionForm.ofHeader header).clauseSize * index)
        return some (clauses, if hasSectionFlag header moreSections then
          some (Bytes.alignFour (cursor + size)) else none) := by
  rw [sectionAt, if_neg (by omega), header_eq, bind_ok]
  unfold SectionForm.ofHeader at size_eq ⊢
  -- The two branches of the reader on the form are the same reading in two widths.
  cases fat : hasSectionFlag header fatSection <;>
    simp only [fat, Bool.false_eq_true, if_true, if_false, SectionForm.sizeWidth] at size_eq ⊢
  all_goals
    rw [size_eq]
    rfl

/-- Where a section has a head, its header and its size are read. -/
theorem exists_head {cursor : Nat} (short : data.length < Address.limit)
    (headed : cursor + 4 ≤ data.length) :
    ∃ header size, numberAt 1 cursor data = .ok header ∧
      read 1 (data.drop cursor) = pure header ∧
      numberAt (SectionForm.ofHeader header).sizeWidth (cursor + 1) data = .ok size ∧
      sectionSize data cursor (SectionForm.ofHeader header) = pure size ∧ size < 0x1000000 := by
  obtain ⟨header, found, made, -⟩ := @exists_number data 1 cursor (by decide) short (by omega)
  obtain ⟨size, size_found, size_made, small⟩ :=
    exists_sectionSize short headed (SectionForm.ofHeader header)
  exact ⟨header, size, found, made, size_found, size_made, small⟩

/-- A section lies within the data from the cursor on, its clauses behind its head, and the next one
does not start before its end. -/
theorem extent_of_sectionAt {cursor : Nat} (short : data.length < Address.limit)
    {clauses : List Clause} {next : Option Nat}
    (found : sectionAt data cursor = .ok (some (clauses, next))) :
    ∃ size, 4 + 12 * clauses.length ≤ size ∧ cursor + size ≤ data.length ∧
      ∀ place, next = some place → place = Bytes.alignFour (cursor + size) := by
  by_cases headed : cursor + 4 ≤ data.length
  · obtain ⟨header, size, header_eq, -, size_eq, -, -⟩ := exists_head short headed
    rw [sectionAt_of_header headed header_eq size_eq] at found
    split at found
    next => cases found
    next =>
      split at found
      next => cases found
      next fits =>
        obtain ⟨made, read, same⟩ := bind_eq_ok.mp found
        cases same
        have length_eq := (mapM_eq_ok_iff.mp read).length_eq
        rw [List.length_range] at length_eq
        refine ⟨size, ?_, by omega, fun place same => ?_⟩
        · have wide : 12 ≤ (SectionForm.ofHeader header).clauseSize := by
            cases SectionForm.ofHeader header <;> decide
          have room := Nat.div_mul_le_self (size - 4) (SectionForm.ofHeader header).clauseSize
          rw [length_eq] at room
          have := Nat.mul_le_mul_left clauses.length wide
          omega
        · split at same
          next => exact (Option.some.inj same).symm
          next => cases same
  · rw [sectionAt, if_pos (by omega)] at found
    cases found

/-- A turn of the loop reads the section at the cursor. -/
theorem follows_sectionAt {cursor : Nat} (short : data.length < 0x4000000000000000)
    (near : cursor ≤ data.length + 3) (clauses : List Clause) :
    Follows (fun made found => made = match found with
        | none => ⟨clauses, none⟩
        | some (more, next) => ⟨clauses ++ more, next⟩)
      (sectionTurn data cursor clauses) (sectionAt data cursor) := by
  have limit_eq := Address.limit_eq
  have below : data.length < Address.limit := by omega
  rw [sectionTurn, add_of_lt (by omega), pure_bind]
  by_cases headless : data.length < cursor + 4
  · rw [if_pos headless, sectionAt, if_pos headless]
    exact .pure rfl
  obtain ⟨header, size, header_eq, header_made, size_eq, size_made, small⟩ :=
    @exists_head data cursor below (by omega)
  rw [if_neg headless, sliceFrom_of_le (by omega), pure_bind, header_made, pure_bind,
    sectionAt_of_header (by omega) header_eq size_eq]
  cases there : hasSectionFlag header clauseSection with
  | false => exact .pure rfl
  | true =>
    dsimp only [Bool.not_true]
    rw [if_neg (by decide), if_neg (by decide), size_made, pure_bind]
    by_cases tiny : size < 4
    · rw [if_pos tiny, if_pos (.inl tiny)]
      exact .throw _
    rw [if_neg tiny, add_of_lt (by omega), pure_bind]
    by_cases long : data.length < cursor + size
    · rw [if_pos long, if_pos (.inr long)]
      exact .throw _
    rw [if_neg long, if_neg (by omega), pure_bind, sub_of_le (by omega), pure_bind]
    refine (follows_clauses below _ _ _ _).bind ?_
    rintro _ more rfl -
    cases hasSectionFlag header moreSections with
    | false => exact .pure rfl
    | true =>
      rw [if_neg (by decide), pure_bind, add_of_lt (by omega), pure_bind]
      exact .pure rfl

/-- The loop reads the sections from the cursor on, for which there is fuel enough. -/
theorem follows_sectionsFrom (short : data.length < 0x4000000000000000) (fuel : Nat) {cursor : Nat}
    (near : cursor ≤ data.length + 3) (enough : data.length < cursor + 4 + fuel)
    (clauses : List Clause) :
    Follows (fun made more => made = clauses ++ more) (Walk.finish data ⟨clauses, some cursor⟩)
      (sectionsFrom data fuel cursor) := by
  have limit_eq := Address.limit_eq
  have below : data.length < Address.limit := by omega
  rw [Walk.finish_some]
  induction fuel generalizing cursor clauses with
  | zero =>
    have turn : sectionTurn data cursor clauses = pure ⟨clauses, none⟩ := by
      rw [sectionTurn, add_of_lt (by omega), pure_bind, if_pos (by omega)]
    rw [turn, pure_bind, Walk.finish_none]
    exact .pure (List.append_nil clauses).symm
  | succ fuel ih =>
    rw [sectionsFrom]
    refine (follows_sectionAt short near clauses).bind ?_
    rintro _ (_ | ⟨more, _ | next⟩) rfl found
    · rw [Walk.finish_none]
      exact .pure (List.append_nil clauses).symm
    · rw [Walk.finish_none]
      exact .pure rfl
    · obtain ⟨size, room, inside, next_eq⟩ := extent_of_sectionAt below found
      have next_eq := next_eq next rfl
      have forward := Bytes.le_alignFour (cursor + size)
      have near' : next ≤ data.length + 3 := by
        rw [next_eq, Bytes.alignFour]
        omega
      dsimp only
      rw [Walk.finish_some, ← bind_pure (sectionTurn _ _ _ >>= _)]
      refine (ih near' (by omega) (clauses ++ more)).bind ?_
      rintro _ others rfl -
      exact .pure (List.append_assoc _ _ _)

/-- Every turn that goes on takes the cursor on. -/
theorem lt_of_sectionTurn (short : data.length < 0x4000000000000000) {cursor next : Nat}
    {clauses made : List Clause}
    (turn : sectionTurn data cursor clauses = pure ⟨made, some next⟩) : cursor < next := by
  have limit_eq := Address.limit_eq
  by_cases headed : cursor + 4 ≤ data.length
  · have near : cursor ≤ data.length + 3 := by omega
    rcases follows_sectionAt short near clauses with
      ⟨_, _ | ⟨more, _ | place⟩, rfl, made_eq, found_eq⟩ | ⟨fault, failed, -⟩
    · cases pure_inj (turn.symm.trans made_eq)
    · cases pure_inj (turn.symm.trans made_eq)
    · cases pure_inj (turn.symm.trans made_eq)
      obtain ⟨size, room, -, place_eq⟩ := extent_of_sectionAt (by omega) found_eq
      have place_eq := place_eq next rfl
      have forward := Bytes.le_alignFour (cursor + size)
      omega
    · cases pure_ne_throw (turn.symm.trans failed)
  · -- Too near the end, or so far behind it that the sum breaks down, the loop does not go on.
    rw [sectionTurn, add] at turn
    split at turn
    next =>
      rw [pure_bind, if_pos (by omega)] at turn
      cases pure_inj turn
    next => cases pure_ne_throw turn.symm

/-- The clauses of sections from a cursor on take no more bytes than there are. -/
theorem length_clauses_le (short : data.length < Address.limit) {fuel cursor : Nat}
    {clauses : List Clause} (found : sectionsFrom data fuel cursor = .ok clauses) :
    clauses = [] ∨ cursor + 12 * clauses.length ≤ data.length := by
  induction fuel generalizing cursor clauses with
  | zero =>
    cases found
    exact .inl rfl
  | succ fuel ih =>
    rw [sectionsFrom] at found
    obtain ⟨_ | ⟨first, _ | next⟩, first_eq, found⟩ := bind_eq_ok.mp found
    · cases found
      exact .inl rfl
    · cases found
      obtain ⟨size, room, inside, -⟩ := extent_of_sectionAt short first_eq
      right
      omega
    · obtain ⟨others, others_eq, found⟩ := bind_eq_ok.mp found
      cases found
      obtain ⟨size, room, inside, next_eq⟩ := extent_of_sectionAt short first_eq
      have next_eq := next_eq next rfl
      have forward := Bytes.le_alignFour (cursor + size)
      right
      rw [List.length_append]
      rcases ih others_eq with rfl | rest
      · rw [List.length_nil]
        omega
      · omega

end

/-! ## Bodies are read alike -/

section

variable {data : Bytes}

/-- A tiny body is parsed without an abort, whatever its length. -/
theorem parseTiny_eq (first : UInt8) :
    parseTiny first data = done (Body.parseTiny first data) := by
  have limit_eq := Address.limit_eq
  have := first.toNat_lt
  rw [parseTiny, Body.parseTiny]
  dsimp only
  rw [add_of_lt (by omega), pure_bind]
  split
  next => rfl
  next enough =>
    rw [pure_bind, slice_of_le (by omega) (by omega), pure_bind, Nat.add_sub_cancel]
    rfl

/-- A fat body is parsed without an abort. The bound keeps the sums with a declared size below the
limit of addresses. -/
theorem parseFat_eq (short : data.length < 0x4000000000000000) :
    parseFat data = done (Body.parseFat data) := by
  have limit_eq := Address.limit_eq
  have below : data.length < Address.limit := by omega
  refine follows_eq_iff.mp ?_
  rw [parseFat, Body.parseFat]
  by_cases headless : data.length < fatHeaderSize
  · rw [if_pos headless, if_pos headless]
    exact .throw _
  have long : 12 ≤ data.length := Nat.le_of_not_lt headless
  -- the four numbers of the header, which both readers find within the first twelve bytes
  obtain ⟨start, start_eq, start_made, start_lt⟩ :=
    @exists_number data 2 0 (by decide) below (by omega)
  obtain ⟨stack, stack_eq, stack_made, -⟩ := @exists_number data 2 2 (by decide) below (by omega)
  obtain ⟨size, size_eq, size_made, size_lt⟩ :=
    @exists_number data 4 4 (by decide) below (by omega)
  obtain ⟨token, token_eq, token_made, -⟩ := @exists_number data 4 8 (by decide) below (by omega)
  have start_lt : start < 0x10000 := start_lt
  have size_lt : size < 0x100000000 := size_lt
  have token_eq : wordAt 4 8 data = .ok (UInt32.ofNat token) := by
    rw [wordAt, token_eq]
    rfl
  have start_made : read 2 data = pure start := start_made
  simp only [start_eq, stack_eq, size_eq, token_eq, bind_ok]
  rw [if_neg headless, if_neg headless, start_made, pure_bind, mul_of_lt (by omega), pure_bind,
    sliceFrom_of_le (by omega), pure_bind, size_made, pure_bind]
  by_cases narrow : start / 0x1000 * 4 < fatHeaderSize
  · rw [if_pos narrow, if_pos (.inl narrow)]
    exact .throw _
  rw [if_neg narrow, add_of_lt (by omega), pure_bind]
  by_cases cut : data.length < size + start / 0x1000 * 4
  · rw [if_pos cut, if_pos (.inr cut)]
    exact .throw _
  -- from here on every place lies inside `data`, so no checked operation can fail
  have stack_there : sliceFrom data 2 = pure (data.drop 2) := sliceFrom_of_le (by omega)
  have token_there : sliceFrom data 8 = pure (data.drop 8) := sliceFrom_of_le (by omega)
  have behind : add (start / 0x1000 * 4) size = pure (start / 0x1000 * 4 + size) :=
    add_of_lt (by omega)
  have code_made : slice data (start / 0x1000 * 4) (start / 0x1000 * 4 + size) =
      pure ((data.drop (start / 0x1000 * 4)).take size) := by
    rw [slice_of_le (by omega) (by omega), Nat.add_sub_cancel_left]
  rw [if_neg cut, if_neg (by omega)]
  simp only [stack_there, stack_made, token_there, token_made, behind, code_made, pure_bind]
  by_cases sectioned : start / 0x8 % 2 = 1
  · rw [readBehind, if_pos sectioned, if_pos sectioned, behind, pure_bind, add_of_lt (by omega),
      pure_bind]
    refine (follows_sectionsFrom short data.length (by omega) (by omega) []).bind ?_
    rintro _ clauses rfl -
    exact .pure rfl
  · rw [readBehind, if_neg sectioned, if_neg sectioned]
    exact .pure rfl

/-- A body of either format is parsed without an abort, and refused with the same fault. -/
theorem parse_eq (short : data.length < 0x4000000000000000) :
    parse data = done (RawBody.parse data) := by
  have limit_eq := Address.limit_eq
  cases data with
  | nil => rfl
  | cons first rest =>
    obtain ⟨value, value_eq, made, -⟩ :=
      @exists_number (first :: rest) 1 0 (by decide) (by omega) (by simp)
    have value_eq : value = first.toNat := by
      cases value_eq
      simp
    have made : read 1 (first :: rest) = pure value := made
    rw [parse, RawBody.parse, if_neg (by simp), made, pure_bind, value_eq, UInt8.ofNat_toNat]
    dsimp only
    split
    next => exact parseTiny_eq first
    next =>
      split
      next => exact parseFat_eq short
      next => rfl

/-! ## Regions are made alike -/

/-- The starts of a layout are all of it but the last, so the slice is in range also of an empty
one. -/
theorem startIndex_eq (offsets : List Nat) (offset : Nat) :
    startIndex offsets offset = done (Body.startIndex offsets offset) := by
  rw [startIndex, Body.startIndex, slice_of_le (Nat.zero_le _) (by omega), pure_bind,
    List.drop_zero, Nat.sub_zero, ← List.dropLast_eq_take]
  cases Il.boundary? offsets.dropLast offset <;> rfl

/-- The end of a range is a sum of two words of 32 bits, which a machine word of 64 holds. -/
theorem follows_endIndex (offsets : List Nat) (start length : UInt32) :
    Follows (· = ·) (endIndex offsets start length) (Body.endIndex offsets start length) := by
  have start_lt := start.toNat_lt
  have length_lt := length.toNat_lt
  have limit_eq := Address.limit_eq
  have word_eq : UInt32.ofNat (start.toNat + length.toNat) = start + length := by
    rw [UInt32.ofNat_add, UInt32.ofNat_toNat, UInt32.ofNat_toNat]
  rw [endIndex, Body.endIndex, add_of_lt (by omega), pure_bind, word_eq]
  dsimp only
  split
  next => exact .pure rfl
  next =>
    split
    next => exact .throw _
    next =>
      exact (follows_eq_iff.mpr (startIndex_eq offsets _)).map fun _ _ same _ => congrArg some same

/-- A handler is told without an abort. -/
theorem follows_handlerOfClause (clause : Clause) (offsets : List Nat) :
    Follows (· = ·) (handlerOf clause offsets) (Region.handlerOfClause clause offsets) := by
  rw [handlerOf, Region.handlerOfClause]
  cases clause.kind with
  | filter =>
    exact (follows_eq_iff.mpr (startIndex_eq offsets _)).map fun _ _ same _ =>
      congrArg Handler.filter same
  | _ => exact .pure rfl

/-- A region is told without an abort, its four places being looked for in the same order. -/
theorem follows_ofClause (clause : Clause) (offsets : List Nat) :
    Follows (· = ·) (regionOf offsets clause) (Region.ofClause clause offsets) := by
  have starts (offset : Nat) := follows_eq_iff.mpr (startIndex_eq offsets offset)
  rw [regionOf, Region.ofClause]
  refine (follows_handlerOfClause clause offsets).bind ?_
  rintro handler _ rfl -
  refine (starts _).bind ?_
  rintro tryStart _ rfl -
  refine (follows_endIndex _ _ _).bind ?_
  rintro tryEnd _ rfl -
  refine (starts _).bind ?_
  rintro handlerStart _ rfl -
  refine (follows_endIndex _ _ _).bind ?_
  rintro handlerEnd _ rfl -
  exact .pure rfl

/-- A body is decoded by machine as it is decoded. -/
theorem decodeBody_eq (short : data.length < 0x4000000000000000) :
    decodeBody data = done (MethodBody.decode data) := by
  have limit_eq := Address.limit_eq
  refine follows_eq_iff.mp ?_
  rw [decodeBody, MethodBody.decode, parse_eq short]
  refine (follows_eq_iff.mpr rfl).bind ?_
  rintro raw _ rfl parsed
  have code_le : raw.code.length ≤ data.length := by
    have := (hasCode_of_parse parsed).1.length_le
    rw [List.length_drop] at this
    omega
  rw [decodeStream_eq (by omega)]
  refine (follows_eq_iff.mpr rfl).bind ?_
  rintro instructions _ rfl decoded
  obtain ⟨⟨scanned, spelled, -, named⟩, -⟩ := Il.decode_eq_ok_iff.mp decoded
  have size_eq := spelled.length_eq named
  rw [layoutOf_eq (by omega), pure_bind]
  refine (Follows.mapM fun clause _ => follows_ofClause clause _).bind ?_
  rintro regions _ rfl -
  exact .pure rfl

/-! ## Hostile input -/

/-- The sizes of header and code that the front of a body declares. -/
inductive Declares : Bytes → Nat → Nat → Prop
  | tiny {first : UInt8} {rest : Bytes} (format : first.toNat % 4 = 2) :
    Declares (first :: rest) 1 (first.toNat / 4)
  | fat {first : UInt8} {rest : Bytes} {start size : Nat} (format : first.toNat % 4 = 3)
      (start_eq : numberAt 2 0 (first :: rest) = .ok start)
      (size_eq : numberAt 4 4 (first :: rest) = .ok size) :
    Declares (first :: rest) (start / 0x1000 * 4) size

/-- The parts of a body that was read lie in the data: the code, of the size that is declared, right
behind the header, and no more clauses than there are bytes for. -/
structure Contained (data : Bytes) (raw : RawBody) (size : Nat) : Prop where
  declares : Declares data raw.headerSize size
  inside : raw.headerSize + size ≤ data.length
  code_eq : raw.code = (data.drop raw.headerSize).take size
  few_clauses : 12 * raw.clauses.length ≤ data.length

section

variable {first : UInt8} {rest : Bytes} {raw : RawBody}

/-- What a tiny header declares is inside the data, and there are no clauses. -/
theorem contained_of_parseTiny (format : first.toNat % 4 = 2)
    (parsed : Body.parseTiny first (first :: rest) = .ok raw) :
    Contained (first :: rest) raw (first.toNat / 4) := by
  unfold Body.parseTiny at parsed
  dsimp only at parsed
  split at parsed
  next => cases parsed
  next enough =>
    have inside : 1 + first.toNat / 4 ≤ (first :: rest).length := by omega
    cases parsed
    exact ⟨.tiny format, inside, rfl, Nat.zero_le _⟩

/-- What a fat header declares is inside the data, and each clause took twelve bytes of it or more.
-/
theorem contained_of_parseFat (short : (first :: rest).length < Address.limit)
    (format : first.toNat % 4 = 3) (parsed : Body.parseFat (first :: rest) = .ok raw) :
    ∃ size, Contained (first :: rest) raw size := by
  unfold Body.parseFat at parsed
  split at parsed
  next => cases parsed
  next =>
    obtain ⟨start, start_eq, parsed⟩ := bind_eq_ok.mp parsed
    obtain ⟨maxStack, -, parsed⟩ := bind_eq_ok.mp parsed
    obtain ⟨size, size_eq, parsed⟩ := bind_eq_ok.mp parsed
    obtain ⟨token, -, parsed⟩ := bind_eq_ok.mp parsed
    dsimp only at parsed
    split at parsed
    next => cases parsed
    next enough =>
      have inside : start / 0x1000 * 4 + size ≤ (first :: rest).length := by omega
      split at parsed
      all_goals
        obtain ⟨clauses, clauses_eq, parsed⟩ := bind_eq_ok.mp parsed
        cases parsed
        refine ⟨size, .fat format start_eq size_eq, inside, rfl, ?_⟩
      · rcases length_clauses_le short clauses_eq with rfl | few
        · exact Nat.zero_le _
        · exact Nat.le_trans (Nat.le_add_left _ _) few
      · cases clauses_eq
        exact Nat.zero_le _

end

/-- Whatever is parsed is contained in the data. -/
theorem contained_of_parse (short : data.length < Address.limit) {raw : RawBody}
    (parsed : RawBody.parse data = .ok raw) : ∃ size, Contained data raw size := by
  unfold RawBody.parse at parsed
  split at parsed
  next => cases parsed
  next =>
    split at parsed
    next format => exact ⟨_, contained_of_parseTiny format parsed⟩
    next =>
      split at parsed
      next format => exact contained_of_parseFat short format parsed
      next => cases parsed

/-- Data of any length that leaves room in a signed word is parsed and decoded by machine: it comes
to what the readers come to, so it ends, in a body or a fault, and no sum, slice or index breaks
down. Every turn of the loop over sections takes the cursor on, and what was read lies in the
data. -/
theorem hostile_input (short : data.length < 0x4000000000000000) :
    parse data = done (RawBody.parse data) ∧ decodeBody data = done (MethodBody.decode data) ∧
      (∀ {cursor next : Nat} {clauses made : List Clause},
        sectionTurn data cursor clauses = pure ⟨made, some next⟩ → cursor < next) ∧
      ∀ raw, RawBody.parse data = .ok raw → ∃ size, Contained data raw size := by
  refine ⟨parse_eq short, decodeBody_eq short, lt_of_sectionTurn short, fun raw parsed => ?_⟩
  exact contained_of_parse (Nat.lt_trans short (by decide)) parsed

end

/-- Four bytes of code, a small section with a finally clause, and a fat section with no clause. -/
def twoSections : Bytes := [
  0x0B, 0x30, 2, 0, 4, 0, 0, 0, 0, 0, 0, 0, 0x00, 0xDE, 0x00, 0x2A,
  0x81, 16, 0, 0, 2, 0, 0, 0, 3, 3, 0, 1, 0, 0, 0, 0, 0x41, 4, 0, 0]

/-- A section with a clause, and a fat one that has room for none: the cursor goes from 16 to 32 and
the parts are inside. -/
theorem hostile_input_twoSections :
    twoSections.length < 0x4000000000000000 ∧
      sectionTurn twoSections 16 [] = pure ⟨[⟨2, 0, 3, 3, 1, 0⟩], some 32⟩ ∧
      RawBody.parse twoSections =
        .ok ⟨2, false, ⟨0⟩, 12, [0x00, 0xDE, 0x00, 0x2A], [⟨2, 0, 3, 3, 1, 0⟩]⟩ ∧
      parse twoSections = done (RawBody.parse twoSections) ∧
      decodeBody twoSections = done (MethodBody.decode twoSections) ∧
      16 < 32 ∧
      ∃ size, Contained twoSections
        ⟨2, false, ⟨0⟩, 12, [0x00, 0xDE, 0x00, 0x2A], [⟨2, 0, 3, 3, 1, 0⟩]⟩ size := by
  have short : twoSections.length < 0x4000000000000000 := by decide
  have turn : sectionTurn twoSections 16 [] = pure ⟨[⟨2, 0, 3, 3, 1, 0⟩], some 32⟩ := rfl
  have parsed : RawBody.parse twoSections =
      .ok ⟨2, false, ⟨0⟩, 12, [0x00, 0xDE, 0x00, 0x2A], [⟨2, 0, 3, 3, 1, 0⟩]⟩ := rfl
  obtain ⟨parse_done, decode_done, onward, inside⟩ := hostile_input short
  exact ⟨short, turn, parsed, parse_done, decode_done, onward turn, inside _ parsed⟩

end Machine

end CilCapture
