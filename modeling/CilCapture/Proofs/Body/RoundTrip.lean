import CilCapture.Proofs.Body.Raw
import CilCapture.Proofs.Body.Region
import CilCapture.Proofs.Il.RoundTrip

/-!
# Reading and writing bodies

A body that can be written is read back as it was (`MethodBody.encode_roundTrip`), but for what the
encoding does not hold: the signature of the locals, and offsets that the layout does not give. The
parts come back from the header and the section behind the code (`parse_of_encode`), the
instructions from the code (`Il.decode_eq_placedFrom`) and each region from its clause
(`ofClause_of_toClause`).

A body that was read can be written and read again whatever form it was read from
(`MethodBody.decode_roundTrip`): every clause comes back normalised, which is the same region.

The first theorem asks that opcodes are known and regions ordered: bytes of an unknown opcode are
not read again, and a range that ends before it starts is written as an empty one. The second asks
nothing of the body that was read but that its clauses can be counted by one section. In particular
bodies with several sections, small sections, flags without a meaning and bytes behind the last
section are all covered by it.
-/

namespace CilCapture.Body

/-- What it takes for a body to be written. -/
theorem exists_of_encode {body : MethodBody} {localsToken : Token} {data : Bytes}
    (encoded : body.encode localsToken = .ok data) :
    ∃ code clauses, Il.encode body.instructions = .ok code ∧
      body.regions.mapM (fun region => region.toClause (Il.layout body.instructions)) =
        .ok clauses ∧
      4 + fatClauseSize * clauses.length ≤ greatestSection := by
  obtain ⟨code, code_eq, encoded⟩ := bind_eq_ok.mp encoded
  dsimp only at encoded
  split at encoded
  next none_left =>
    refine ⟨code, [], code_eq, ?_, by decide⟩
    rw [List.isEmpty_iff.mp none_left]
    rfl
  next =>
    obtain ⟨section_, section_eq, -⟩ := bind_eq_ok.mp encoded
    unfold MethodBody.encodeSection at section_eq
    dsimp only at section_eq
    split at section_eq
    next => cases section_eq
    next few =>
      obtain ⟨clauses, clauses_eq, -⟩ := bind_eq_ok.mp section_eq
      have count_eq := (mapM_eq_ok_iff.mp clauses_eq).length_eq
      refine ⟨code, clauses, code_eq, clauses_eq, ?_⟩
      rw [← count_eq]
      exact Nat.le_of_not_lt few

/-- Ordered regions of a body that were written as clauses come back as they were, in their order.
-/
theorem mapM_ofClause_of_mapM_toClause {regions : List Region} {offsets : List Nat}
    {clauses : List Clause} (ascending : offsets.Pairwise (· < ·))
    (small : layoutSize offsets < 0x100000000) (ordered : ∀ region ∈ regions, region.Ordered)
    (made : regions.mapM (fun region => region.toClause offsets) = .ok clauses) :
    clauses.mapM (fun clause => Region.ofClause clause offsets) = .ok regions := by
  rw [mapM_eq_ok_iff] at made ⊢
  induction made with
  | nil => exact .nil
  | cons head _ ih =>
    obtain ⟨first, rest⟩ := List.forall_mem_cons.mp ordered
    have back := ofClause_of_toClause ascending small head
    rw [Region.straighten_eq_self_iff.mpr first] at back
    exact .cons back (ih rest)

/-- What is written of a body of known instructions and ordered regions is read as the parts that
were written, and decoded to the body without its local signature, its instructions with their
offsets recorded. -/
theorem MethodBody.encode_roundTrip {body : MethodBody} {localsToken : Token} {data : Bytes}
    (known : ∀ instruction ∈ body.instructions, instruction.opcode ∈ Il.Opcode.table)
    (small : body.codeSize < 0x80000000) (ordered : ∀ region ∈ body.regions, region.Ordered)
    (encoded : body.encode localsToken = .ok data) :
    (∃ code clauses, Il.encode body.instructions = .ok code ∧
      body.regions.mapM (fun region => region.toClause (Il.layout body.instructions)) =
        .ok clauses ∧
      RawBody.parse data =
        .ok ⟨body.maxStack, body.initLocals, localsToken, 12, code, clauses⟩) ∧
      MethodBody.decode data = .ok { body with
        localSignature := none
        instructions := Il.placedFrom 0 body.instructions } := by
  obtain ⟨code, clauses, code_eq, clauses_eq, few⟩ := exists_of_encode encoded
  obtain ⟨scanned, spelled, named⟩ := Il.encode_eq_ok_iff.mp code_eq
  have code_size : code.length = body.codeSize := spelled.length_eq named
  obtain ⟨data', written, parsed⟩ :=
    parse_of_encode code_eq clauses_eq (by omega) few localsToken
  cases encoded.symm.trans written
  have instructions_eq := Il.decode_eq_placedFrom known small code_eq
  have size_lt : layoutSize (Il.layout body.instructions) < 0x100000000 := by
    rw [layoutSize_layout]
    exact Nat.lt_trans small (by decide)
  have regions_eq := mapM_ofClause_of_mapM_toClause (Il.layout_ascending body.instructions)
    size_lt ordered clauses_eq
  refine ⟨⟨code, clauses, code_eq, clauses_eq, parsed⟩, ?_⟩
  rw [MethodBody.decode, parsed]
  simp only [bind_ok, instructions_eq, Il.layout_placedFrom, regions_eq]
  rfl

/-- A method of fifteen bytes whose instructions are not laid out, with a handler of each kind, a
block without instructions and blocks that last to the end of the method. -/
def guarded : MethodBody where
  maxStack := 8
  initLocals := true
  localSignature := some [0x07, 0x01, 0x08]
  instructions := [
    ⟨⟨0x72, "ldstr", .token⟩, 0, .token ⟨0x70000001⟩⟩,
    ⟨⟨0x26, "pop", .none⟩, 0, .none⟩,
    ⟨⟨0x28, "call", .token⟩, 0, .token ⟨0x0A000002⟩⟩,
    ⟨⟨0xDE, "leave.s", .shortBranch⟩, 0, .target 5⟩,
    ⟨⟨0xDC, "endfinally", .none⟩, 0, .none⟩,
    ⟨⟨0x2A, "ret", .none⟩, 0, .none⟩]
  regions := [⟨.finallyHandler, 0, some 4, 4, some 5⟩, ⟨.typed ⟨0x02000007⟩, 2, some 2, 3, none⟩,
    ⟨.filter 1, 0, some 1, 5, none⟩, ⟨.faultHandler, 1, none, 4, some 4⟩]

/-- The stale offsets of this body are laid out anew, and its locals, which only the header names,
are not read back. -/
theorem MethodBody.encode_roundTrip_guarded :
    (∀ instruction ∈ guarded.instructions, instruction.opcode ∈ Il.Opcode.table) ∧
      guarded.codeSize < 0x80000000 ∧ (∀ region ∈ guarded.regions, region.Ordered) ∧
      ∃ data body, guarded.encode ⟨0x11000001⟩ = .ok data ∧ MethodBody.decode data = .ok body ∧
        body.instructions.map (·.offset) = [0, 5, 6, 11, 13, 14] ∧
        body.regions = guarded.regions ∧ body.localSignature = none := by
  have known : ∀ instruction ∈ guarded.instructions, instruction.opcode ∈ Il.Opcode.table := by
    decide +kernel
  have small : guarded.codeSize < 0x80000000 := by decide
  have ordered : ∀ region ∈ guarded.regions, region.Ordered := by decide
  obtain ⟨data, encoded⟩ : ∃ data, guarded.encode ⟨0x11000001⟩ = .ok data := ⟨_, rfl⟩
  obtain ⟨-, decoded⟩ := MethodBody.encode_roundTrip known small ordered encoded
  exact ⟨known, small, ordered, data, _, encoded, decoded, rfl, rfl, rfl⟩

/-! ## Writing what was read -/

/-- A body that was read, and whose clauses fit a section, can be written under every token for its
locals. What is written has the same code behind its header, is read as the same parts but for the
token, the size of the header and the words of a clause that have no meaning, and is decoded to the
same body. -/
theorem MethodBody.decode_roundTrip {data : Bytes} {body : MethodBody}
    (decoded : MethodBody.decode data = .ok body) (few : body.regions.length ≤ 699050)
    (localsToken : Token) :
    ∃ raw written, RawBody.parse data = .ok raw ∧ body.encode localsToken = .ok written ∧
      RawBody.parse written = .ok { raw with
        localsToken
        headerSize := 12
        clauses := raw.clauses.map Clause.normalise } ∧
      raw.code <+: data.drop raw.headerSize ∧ raw.code <+: written.drop 12 ∧
      MethodBody.decode written = .ok body := by
  obtain ⟨raw, parsed, decoded⟩ := bind_eq_ok.mp decoded
  obtain ⟨instructions, instructions_eq, decoded⟩ := bind_eq_ok.mp decoded
  obtain ⟨regions, regions_eq, decoded⟩ := bind_eq_ok.mp decoded
  cases decoded
  obtain ⟨there, code_small⟩ := hasCode_of_parse parsed
  obtain ⟨⟨scanned, spelled, -, named⟩, -⟩ := Il.decode_eq_ok_iff.mp instructions_eq
  have code_eq : Il.encode instructions = .ok raw.code :=
    Il.encode_eq_ok_iff.mpr ⟨scanned, spelled, named⟩
  have small : layoutSize (Il.layout instructions) < 0x100000000 := by
    rw [layoutSize_layout, ← spelled.length_eq named]
    exact code_small
  have clauses_eq := mapM_toClause_of_mapM_ofClause small regions_eq
  have few' : 4 + fatClauseSize * (raw.clauses.map Clause.normalise).length ≤ greatestSection := by
    rw [List.length_map, (mapM_eq_ok_iff.mp regions_eq).length_eq, fatClauseSize, greatestSection]
    dsimp only at few
    omega
  obtain ⟨written, written_eq, read⟩ :=
    @parse_of_encode ⟨raw.maxStack, raw.initLocals, none, instructions, regions⟩ _ _
      code_eq clauses_eq code_small few' localsToken
  refine ⟨raw, written, parsed, written_eq, read, there, (hasCode_of_parse read).1, ?_⟩
  rw [MethodBody.decode, read]
  simp only [bind_ok, instructions_eq, mapM_ofClause_normalise, regions_eq]
  rfl

/-- A method of five bytes with a small section of one clause, a fat section of another one and
bytes behind them. The first clause names a class that a finally handler does not have, the second
has flags without a meaning. -/
def chainedBytes : Bytes := [
  0x1B, 0x30, 2, 0, 5, 0, 0, 0, 9, 0, 0, 0x11,
  0x00, 0xDE, 0x01, 0xDC, 0x2A, 0, 0, 0,
  0x81, 16, 0, 0, 2, 0, 0, 0, 3, 3, 0, 1, 0xEF, 0xBE, 0xAD, 0xDE,
  0x41, 28, 0, 0, 0x18, 0, 0, 0, 0, 0, 0, 0, 3, 0, 0, 0, 3, 0, 0, 0, 2, 0, 0, 0, 7, 0, 0, 2,
  0xFF, 0xFF, 0xFF]

/-- Two sections of different forms and bytes behind them are written again as one section, and are
the same body when decoded once more. -/
theorem MethodBody.decode_roundTrip_chained :
    ∃ body written, MethodBody.decode chainedBytes = .ok body ∧ body.regions.length = 2 ∧
      body.encode ⟨0x11000001⟩ = .ok written ∧ MethodBody.decode written = .ok body := by
  obtain ⟨body, decoded, two⟩ :
      ∃ body, MethodBody.decode chainedBytes = .ok body ∧ body.regions.length = 2 :=
    ⟨_, rfl, rfl⟩
  obtain ⟨_, written, -, encoded, -, -, -, again⟩ :=
    MethodBody.decode_roundTrip decoded (by rw [two]; decide) ⟨0x11000001⟩
  exact ⟨body, written, decoded, two, encoded, again⟩

end CilCapture.Body
