import CilCapture.Proofs.Body.Sections

/-!
# Bodies and their parts

What a fat header says decides how the bytes behind it are read (`parse_of_fatHeader`). A body whose
code and sections stand where its header says is read as these parts (`parse_of_parts`), and so is
what `MethodBody.encode` writes (`parse_of_encode`).

Two ways lead to the parts of a body and are kept apart here: from a header of which only the fields
are known, and from a body that was written. The first is general enough for headers that are longer
than they have to be and for code followed by anything; the second is the first with the header that
the writer chooses.

A reader never looks behind what the header declares, and `hasCode_of_parse` says that the code it
returns is a slice of the data right behind the header.
-/

namespace CilCapture.Body

/-! ## Code -/

/-- A code that stands behind its header and whose bytes a word counts. -/
def RawBody.HasCode (raw : RawBody) (data : Bytes) : Prop :=
  raw.code <+: data.drop raw.headerSize ∧ raw.code.length < 0x100000000

/-- The code of a tiny body stands behind its one byte of header. -/
theorem hasCode_of_parseTiny {first : UInt8} {data : Bytes} {raw : RawBody}
    (parsed : parseTiny first data = .ok raw) : raw.HasCode data := by
  unfold parseTiny at parsed
  dsimp only at parsed
  split at parsed
  next => cases parsed
  next =>
    cases parsed
    have := first.toNat_lt
    refine ⟨List.take_prefix _ _, Nat.lt_of_le_of_lt (List.length_take_le _ _) ?_⟩
    omega

/-- The code of a fat body stands behind a header of the size that it states. -/
theorem hasCode_of_parseFat {data : Bytes} {raw : RawBody} (parsed : parseFat data = .ok raw) :
    raw.HasCode data := by
  unfold parseFat at parsed
  split at parsed
  next => cases parsed
  next =>
    obtain ⟨start, -, parsed⟩ := bind_eq_ok.mp parsed
    obtain ⟨maxStack, -, parsed⟩ := bind_eq_ok.mp parsed
    obtain ⟨size, size_eq, parsed⟩ := bind_eq_ok.mp parsed
    obtain ⟨token, -, parsed⟩ := bind_eq_ok.mp parsed
    dsimp only at parsed
    split at parsed
    next => cases parsed
    next =>
      -- With sections or without, the code is the same.
      split at parsed
      all_goals
        obtain ⟨clauses, -, parsed⟩ := bind_eq_ok.mp parsed
        cases parsed
        exact ⟨List.take_prefix _ _,
          Nat.lt_of_le_of_lt (List.length_take_le _ _) (numberAt_lt size_eq)⟩

/-- Whatever is parsed, its code is a slice of the data behind the header. -/
theorem hasCode_of_parse {data : Bytes} {raw : RawBody} (parsed : RawBody.parse data = .ok raw) :
    raw.HasCode data := by
  unfold RawBody.parse at parsed
  split at parsed
  next => cases parsed
  next first _ =>
    split at parsed
    next => exact hasCode_of_parseTiny parsed
    next =>
      split at parsed
      next => exact hasCode_of_parseFat parsed
      next => cases parsed

/-! ## Headers -/

/-- The fields of a fat header. -/
def fatHeader (flags : Nat) (maxStack : UInt16) (size : Nat) (localsToken : Token) : Bytes :=
  Bytes.ofNat 2 flags ++ (Bytes.ofNat 2 maxStack.toNat ++ (Bytes.ofNat 4 size ++
    Bytes.ofNat 4 localsToken.value.toNat))

/-- A fat header that is written has the least size, whatever its fields. -/
@[simp] theorem length_fatHeader (flags : Nat) (maxStack : UInt16) (size : Nat)
    (localsToken : Token) :
    (fatHeader flags maxStack size localsToken).length = fatHeaderSize := by
  simp [fatHeader, fatHeaderSize]

/-- Bytes of a fat header, in words by the upper four bits of its flags. -/
def headerSizeOf (flags : Nat) : Nat := flags / 0x1000 * 4

section

variable {flags size : Nat} {maxStack : UInt16} {localsToken : Token} {data : Bytes}

/-- What stands behind a fat header is read as the header says. -/
theorem parse_of_fatHeader {rest : Bytes} (fat : flags % 4 = 3) (word : flags < 0x10000)
    (small : size < 0x100000000)
    (data_eq : data = fatHeader flags maxStack size localsToken ++ rest) :
    RawBody.parse data =
      if headerSizeOf flags < fatHeaderSize ∨ data.length < size + headerSizeOf flags then
        .error .outOfBounds
      else do
        let clauses ←
          if flags / 0x8 % 2 = 1 then
            sectionsFrom data data.length (Bytes.alignFour (headerSizeOf flags + size))
          else pure []
        return ⟨maxStack, flags / 0x10 % 2 == 1, localsToken, headerSizeOf flags,
          (data.drop (headerSizeOf flags)).take size, clauses⟩ := by
  have long : fatHeaderSize ≤ data.length := by
    rw [data_eq, List.length_append, length_fatHeader]
    omega
  have there : data.drop 0 = fatHeader flags maxStack size localsToken ++ rest := data_eq
  rw [fatHeader] at there
  simp only [List.append_assoc] at there
  -- the four fields follow each other, so each is read from what the one before leaves
  have there₁ := drop_add_of_drop there (Bytes.length_ofNat 2 _)
  have there₂ := drop_add_of_drop there₁ (Bytes.length_ofNat 2 _)
  have there₃ := drop_add_of_drop there₂ (Bytes.length_ofNat 4 _)
  have start_eq : numberAt 2 0 data = .ok flags := by
    rw [numberAt_of_drop there]
    exact congrArg Except.ok (Nat.mod_eq_of_lt word)
  have stack_eq : numberAt 2 2 data = .ok maxStack.toNat := by
    rw [numberAt_of_drop there₁]
    exact congrArg Except.ok (Nat.mod_eq_of_lt maxStack.toNat_lt)
  have size_eq : numberAt 4 4 data = .ok size := by
    rw [numberAt_of_drop there₂]
    exact congrArg Except.ok (Nat.mod_eq_of_lt small)
  have token_eq : wordAt 4 8 data = .ok localsToken.value :=
    wordAt_of_drop localsToken.value.toNat_lt there₃
  have format : ∃ first tail, data = first :: tail ∧ first.toNat % 4 = 3 := by
    refine ⟨_, _, data_eq, ?_⟩
    rw [UInt8.toNat_ofNat']
    omega
  obtain ⟨first, tail, cons_eq, format⟩ := format
  have parsed : RawBody.parse data = parseFat data := by
    rw [cons_eq, RawBody.parse, if_neg (by omega), if_pos format]
  rw [parsed, parseFat, if_neg (Nat.not_lt.mpr long)]
  simp only [start_eq, stack_eq, size_eq, token_eq, bind_ok, UInt16.ofNat_toNat]
  split
  next short => exact (if_pos short).symm
  next enough => exact (if_neg enough).symm

/-- A body whose code, and sections if there are any, stand where its header says is read as these
parts. A header of more than three words has bytes behind its fields. -/
theorem parse_of_parts {extra code rest : Bytes} {clauses : List Clause} (fat : flags % 4 = 3)
    (word : flags < 0x10000) (wide : fatHeaderSize + extra.length = headerSizeOf flags)
    (small : code.length < 0x100000000)
    (data_eq : data = fatHeader flags maxStack code.length localsToken ++ (extra ++ (code ++ rest)))
    (sections : if flags / 0x8 % 2 = 1
      then sectionsFrom data data.length (Bytes.alignFour (headerSizeOf flags + code.length)) =
        .ok clauses
      else clauses = []) :
    RawBody.parse data =
      .ok ⟨maxStack, flags / 0x10 % 2 == 1, localsToken, headerSizeOf flags, code, clauses⟩ := by
  have length_eq : data.length = headerSizeOf flags + code.length + rest.length := by
    simp only [data_eq, List.length_append, length_fatHeader, ← wide]
    omega
  have code_eq : (data.drop (headerSizeOf flags)).take code.length = code := by
    rw [data_eq, ← List.append_assoc, ← wide, List.drop_left' (by simp), List.take_left]
  rw [parse_of_fatHeader fat word small data_eq, if_neg (by omega), code_eq]
  split at sections
  next more =>
    rw [if_pos more, sections]
    rfl
  next last =>
    rw [if_neg last, sections]
    rfl

end

/-! ## What is written -/

/-- The flags of a written header: fat, three words, and one bit each for zeroed locals and for
sections. -/
theorem headerFlags_spec (body : MethodBody) :
    body.headerFlags % 4 = 3 ∧ body.headerFlags / 0x1000 = 3 ∧
      (body.headerFlags / 0x10 % 2 == 1) = body.initLocals ∧
      (body.headerFlags / 0x8 % 2 = 1 ↔ body.regions ≠ []) := by
  obtain ⟨maxStack, initLocals, locals, instructions, regions⟩ := body
  cases initLocals <;> cases regions <;> simp [MethodBody.headerFlags]

/-- The clauses of a body as the fat section that is written of them. -/
def fatBlock (clauses : List Clause)
    (few : 4 + fatClauseSize * clauses.length ≤ greatestSection) : ClauseSection where
  form := .fat
  clauses := clauses
  spare := 0
  reserved := []
  fits := fun clause _ => clause.fits_fat
  few := Nat.lt_succ_of_le few
  reserved_length := rfl

/-- Regions are written as one fat section, the last of its chain, if their clauses fit its size
field. -/
theorem encodeSection_of_clauses {regions : List Region} {offsets : List Nat}
    {clauses : List Clause}
    (made : regions.mapM (fun region => region.toClause offsets) = .ok clauses)
    (few : 4 + fatClauseSize * clauses.length ≤ greatestSection) :
    MethodBody.encodeSection regions offsets = .ok ((fatBlock clauses few).encode false) := by
  have count_eq : regions.length = clauses.length := (mapM_eq_ok_iff.mp made).length_eq
  have head_eq (size : Nat) : Bytes.ofNat 4 (clauseSection + fatSection + size * 256) =
      Bytes.ofNat 1 (clauseSection + fatSection) ++ Bytes.ofNat 3 size := by
    have quotient : (0x41 + size * 256) / 256 = size := by omega
    have low : UInt8.ofNat (0x41 + size * 256) = UInt8.ofNat 0x41 := by
      rw [← UInt8.toNat_inj, UInt8.toNat_ofNat', UInt8.toNat_ofNat']
      omega
    change UInt8.ofNat (0x41 + size * 256) :: Bytes.ofNat 3 ((0x41 + size * 256) / 256) = _
    rw [quotient, low]
    rfl
  rw [MethodBody.encodeSection, count_eq, if_neg (Nat.not_lt.mpr few), made, head_eq]
  rfl

/-- What is written behind a code that ends at an offset: the section from the next multiple of four
on, if it has clauses. -/
def sectionBehind (finish : Nat) (block : ClauseSection) : Bytes :=
  if block.clauses = [] then []
  else Bytes.zeros (Bytes.alignFour finish - finish) ++ block.encode false

/-- Behind the code the section takes its own size and the gap in front of it. -/
theorem length_sectionBehind (finish : Nat) {block : ClauseSection}
    (some_clause : block.clauses ≠ []) :
    finish + (sectionBehind finish block).length = Bytes.alignFour finish + block.size := by
  have := Bytes.le_alignFour finish
  rw [sectionBehind, if_neg some_clause, List.length_append, Bytes.length_zeros,
    block.length_encode]
  omega

/-- Behind a front part with such an end, the section starts at the next multiple of four. -/
theorem drop_sectionBehind (front : Bytes) {block : ClauseSection}
    (some_clause : block.clauses ≠ []) :
    (front ++ sectionBehind front.length block).drop (Bytes.alignFour front.length) =
      block.encode false := by
  have aligned : (front ++ Bytes.zeros (Bytes.alignFour front.length - front.length)).length =
      Bytes.alignFour front.length := by
    rw [List.length_append, Bytes.length_zeros]
    exact Nat.add_sub_of_le (Bytes.le_alignFour _)
  rw [sectionBehind, if_neg some_clause, ← List.append_assoc, List.drop_left' aligned]

/-- A body whose instructions and regions can be written is written as header, code and section. -/
theorem encode_of_parts {body : MethodBody} {code : Bytes} {clauses : List Clause}
    (encoded : Il.encode body.instructions = .ok code)
    (clauses_eq : body.regions.mapM (fun region => region.toClause (Il.layout body.instructions)) =
      .ok clauses)
    (few : 4 + fatClauseSize * clauses.length ≤ greatestSection) (localsToken : Token) :
    body.encode localsToken = .ok (
      fatHeader body.headerFlags body.maxStack code.length localsToken ++ (code ++
        sectionBehind (fatHeaderSize + code.length) (fatBlock clauses few))) := by
  have count_eq : body.regions.length = clauses.length := (mapM_eq_ok_iff.mp clauses_eq).length_eq
  have front_eq : Bytes.ofNat 2 body.headerFlags ++ Bytes.ofNat 2 body.maxStack.toNat ++
      Bytes.ofNat 4 code.length ++ Bytes.ofNat 4 localsToken.value.toNat ++ code =
      fatHeader body.headerFlags body.maxStack code.length localsToken ++ code := by
    simp only [fatHeader, List.append_assoc]
  have front_length : (fatHeader body.headerFlags body.maxStack code.length localsToken ++
      code).length = fatHeaderSize + code.length := by
    rw [List.length_append, length_fatHeader]
  rw [MethodBody.encode, encoded]
  simp only [bind_ok, front_eq, front_length, encodeSection_of_clauses clauses_eq few]
  cases clauses with
  | nil =>
    rw [List.length_eq_zero_iff.mp count_eq]
    simp only [List.isEmpty_nil, sectionBehind, fatBlock, if_true, List.append_nil]
    rfl
  | cons clause clauses =>
    have nonempty : body.regions.isEmpty = false := by
      rw [List.isEmpty_eq_false_iff, ← List.length_pos_iff, count_eq]
      exact Nat.succ_pos _
    simp only [nonempty, sectionBehind, fatBlock, reduceCtorEq, Bool.false_eq_true, if_false,
      List.append_assoc]
    rfl

/-- What is written of a body is read as its parts. -/
theorem parse_of_encode {body : MethodBody} {code : Bytes} {clauses : List Clause}
    (encoded : Il.encode body.instructions = .ok code)
    (clauses_eq : body.regions.mapM (fun region => region.toClause (Il.layout body.instructions)) =
      .ok clauses)
    (small : code.length < 0x100000000)
    (few : 4 + fatClauseSize * clauses.length ≤ greatestSection) (localsToken : Token) :
    ∃ data, body.encode localsToken = .ok data ∧ RawBody.parse data =
      .ok ⟨body.maxStack, body.initLocals, localsToken, fatHeaderSize, code, clauses⟩ := by
  obtain ⟨fat, three, init, more⟩ := headerFlags_spec body
  have count_eq : body.regions.length = clauses.length := (mapM_eq_ok_iff.mp clauses_eq).length_eq
  have header_eq : headerSizeOf body.headerFlags = fatHeaderSize := by rw [headerSizeOf, three]; rfl
  refine ⟨_, encode_of_parts encoded clauses_eq few localsToken, ?_⟩
  rw [← init, ← header_eq]
  have wide : fatHeaderSize + ([] : Bytes).length = headerSizeOf body.headerFlags := header_eq.symm
  refine parse_of_parts fat (by omega) wide small rfl ?_
  split
  next set =>
    have some_clause : (fatBlock clauses few).clauses ≠ [] := by
      rw [← List.length_pos_iff, fatBlock, ← count_eq, List.length_pos_iff]
      exact more.mp set
    let front := fatHeader body.headerFlags body.maxStack code.length localsToken ++ code
    have front_length : front.length = fatHeaderSize + code.length := by
      rw [List.length_append, length_fatHeader]
    have there := drop_sectionBehind front some_clause
    rw [front_length, ← List.append_nil (ClauseSection.encode _ _), List.append_assoc] at there
    have chain := @sectionsFrom_of_chain (fatBlock clauses few) [] _ _ []
      (Bytes.four_dvd_alignFour _) there
    rw [List.flatMap_singleton] at chain
    rw [header_eq]
    exact chain
  next unset =>
    rw [← List.length_eq_zero_iff, ← count_eq, List.length_eq_zero_iff]
    exact not_not.mp fun some_region => unset (more.mpr some_region)

end CilCapture.Body
