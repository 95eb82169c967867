import Mathlib.Data.List.Infix
import CilCapture.Proofs.Body.RoundTrip

/-!
# Truncated bodies

What is left of a written body when its end is cut off. A cut within the header, the code or the
section is noticed. A cut between the end of the code and the end of the section's head is not: too
few bytes for a section are taken for the end of the chain, whatever the header says, and the body
is read without clauses (`MethodBody.parse_truncated`).

Every prefix of what is written is looked at, so the proof goes by where the cut falls:
`parse_of_cut_header`, `parse_of_cut_code` and `parse_of_cut_section`, with the cut in the gap
before the section, or in its head, as the case that is left. That case is the counterexample to
reading every truncated body as one (`truncation_unnoticed`).
-/

namespace CilCapture.Body

/-! ## Cuts -/

/-- Where too few bytes are left for the head of a section there is none. -/
theorem sectionsFrom_of_short {data : Bytes} {cursor : Nat} (short : data.length < cursor + 4)
    (fuel : Nat) : sectionsFrom data fuel cursor = .ok [] := by
  cases fuel with
  | zero => rfl
  | succ fuel =>
    rw [sectionsFrom, sectionAt, if_pos short]
    rfl

/-- A section whose head is there and whose clauses are cut off is refused. -/
theorem sectionsFrom_of_truncated {block : ClauseSection} {more : Bool} {cursor : Nat}
    {data : Bytes} (there : data.drop cursor <+: block.encode more)
    (headed : cursor + 4 ≤ data.length) (short : data.length < cursor + block.size) :
    sectionsFrom data data.length cursor = .error .outOfBounds := by
  cases length_eq : data.length with
  | zero => omega
  | succ fuel =>
    rw [sectionsFrom, sectionAt_of_truncated there headed short]
    rfl

section

variable {flags size : Nat} {maxStack : UInt16} {localsToken : Token}

/-- A fat header that is cut off is refused. -/
theorem parse_of_cut_header {front rest : Bytes} (fat : flags % 4 = 3)
    (truncated : front <+: fatHeader flags maxStack size localsToken ++ rest)
    (nonempty : front ≠ []) (cut : front.length < fatHeaderSize) :
    RawBody.parse front = .error .outOfBounds := by
  obtain ⟨first, tail, rfl⟩ := List.exists_cons_of_ne_nil nonempty
  have first_eq : first = UInt8.ofNat flags := (List.cons_prefix_cons.mp truncated).1
  have format : first.toNat % 4 = 3 := by
    rw [first_eq, UInt8.toNat_ofNat']
    omega
  rw [RawBody.parse, if_neg (by omega), if_pos format, parseFat, if_pos cut]
  rfl

/-- A body whose code is cut off is refused, whatever stands in it. -/
theorem parse_of_cut_code {rest : Bytes} (fat : flags % 4 = 3) (word : flags < 0x10000)
    (small : size < 0x100000000)
    (cut : fatHeaderSize + rest.length < size + headerSizeOf flags) :
    RawBody.parse (fatHeader flags maxStack size localsToken ++ rest) = .error .outOfBounds := by
  rw [parse_of_fatHeader fat word small rfl, if_pos]
  rw [List.length_append, length_fatHeader]
  exact .inr cut

end

namespace MethodBody

/-! ## Written bodies -/

/-- Where the code of a written body ends. -/
def codeEnd (body : MethodBody) : Nat := fatHeaderSize + body.codeSize

/-- Where the clauses of a written body start, behind the head of their section. -/
def clausesStart (body : MethodBody) : Nat := Bytes.alignFour body.codeEnd + 4

/-- A cut at which the section is lost and its absence is not noticed. -/
def LosesSection (body : MethodBody) (cut : Nat) : Prop :=
  body.regions ≠ [] ∧ body.codeEnd ≤ cut ∧ cut < body.clausesStart

instance (body : MethodBody) (cut : Nat) : Decidable (body.LosesSection cut) :=
  inferInstanceAs (Decidable (_ ∧ _ ∧ _))

/-- A cut behind the code loses the section without notice or is noticed in it. -/
theorem parse_of_cut_section {body : MethodBody} {localsToken : Token} {code rest : Bytes}
    {block : ClauseSection} (code_size : code.length = body.codeSize)
    (small : body.codeSize < 0x100000000) (none_iff : body.regions = [] ↔ block.clauses = [])
    (truncated : rest <+: sectionBehind body.codeEnd block)
    (proper : rest ≠ sectionBehind body.codeEnd block) :
    RawBody.parse (fatHeader body.headerFlags body.maxStack code.length localsToken ++
        (code ++ rest)) =
      if body.LosesSection (body.codeEnd + rest.length) then
        .ok ⟨body.maxStack, body.initLocals, localsToken, fatHeaderSize, code, []⟩
      else .error .outOfBounds := by
  obtain ⟨fat, three, init, more⟩ := headerFlags_spec body
  have header_eq : headerSizeOf body.headerFlags = fatHeaderSize := by rw [headerSizeOf, three]; rfl
  have some_clause : block.clauses ≠ [] := by
    intro none_left
    rw [sectionBehind, if_pos none_left] at truncated proper
    exact proper (List.prefix_nil.mp truncated)
  have some_region : body.regions ≠ [] := mt none_iff.mp some_clause
  -- What is left and what was written have the same front part, up to the end of the code.
  let front := fatHeader body.headerFlags body.maxStack code.length localsToken ++ code
  have front_length : front.length = body.codeEnd := by
    rw [List.length_append, length_fatHeader, codeEnd, code_size]
  have data_eq : fatHeader body.headerFlags body.maxStack code.length localsToken ++
      (code ++ rest) = front ++ rest := (List.append_assoc _ _ _).symm
  have length_eq : (front ++ rest).length = body.codeEnd + rest.length := by
    rw [List.length_append, front_length]
  have left : (front ++ rest).drop (Bytes.alignFour body.codeEnd) <+: block.encode false := by
    have there := drop_sectionBehind front some_clause
    rw [front_length] at there
    rw [← there]
    exact List.IsPrefix.drop ((List.prefix_append_right_inj front).mpr truncated) _
  have code_eq : ((front ++ rest).drop fatHeaderSize).take code.length = code := by
    rw [List.append_assoc, List.drop_left' (length_fatHeader _ _ _ _), List.take_left]
  rw [parse_of_fatHeader fat (by omega) (code_size ▸ small) rfl, header_eq, data_eq, length_eq,
    if_neg (by rw [codeEnd]; omega), code_eq, if_pos (more.mpr some_region), code_size, ← codeEnd,
    init]
  by_cases headed : body.codeEnd + rest.length < Bytes.alignFour body.codeEnd + 4
  · rw [if_pos ⟨some_region, Nat.le_add_right _ _, headed⟩,
      sectionsFrom_of_short (length_eq ▸ headed)]
    rfl
  · have shorter := Nat.lt_of_le_of_ne truncated.length_le (mt truncated.eq_of_length proper)
    have whole := length_sectionBehind body.codeEnd some_clause
    rw [if_neg fun lost => headed lost.2.2, ← length_eq,
      sectionsFrom_of_truncated left (by omega) (by omega)]
    rfl

/-- A proper front part of a written body is refused, as empty or as too short, unless it ends
between the end of the code and the clauses; then it is read as the body without any clause. -/
theorem parse_truncated {body : MethodBody} {localsToken : Token} {data : Bytes}
    (small : body.codeSize < 0x100000000) (encoded : body.encode localsToken = .ok data) :
    ∃ code, Il.encode body.instructions = .ok code ∧ ∀ front, front <+: data → front ≠ data →
      RawBody.parse front =
        if front = [] then .error (.malformed .emptyBody)
        else if body.LosesSection front.length then
          .ok ⟨body.maxStack, body.initLocals, localsToken, fatHeaderSize, code, []⟩
        else .error .outOfBounds := by
  obtain ⟨code, clauses, code_eq, clauses_eq, few⟩ := exists_of_encode encoded
  obtain ⟨scanned, spelled, named⟩ := Il.encode_eq_ok_iff.mp code_eq
  have code_size : code.length = body.codeSize := spelled.length_eq named
  have count_eq := (mapM_eq_ok_iff.mp clauses_eq).length_eq
  have none_iff : body.regions = [] ↔ (fatBlock clauses few).clauses = [] := by
    rw [fatBlock, ← List.length_eq_zero_iff, count_eq, List.length_eq_zero_iff]
  obtain ⟨fat, three, -, -⟩ := headerFlags_spec body
  have header_eq : headerSizeOf body.headerFlags = fatHeaderSize := by rw [headerSizeOf, three]; rfl
  have end_eq : fatHeaderSize + code.length = body.codeEnd := by rw [codeEnd, code_size]
  cases encoded.symm.trans (encode_of_parts code_eq clauses_eq few localsToken)
  rw [end_eq]
  refine ⟨code, code_eq, fun front truncated proper => ?_⟩
  split
  next empty => rw [empty]; rfl
  next nonempty =>
    rcases Nat.lt_or_ge front.length fatHeaderSize with cut | whole
    · rw [if_neg fun lost => absurd lost.2.1 (by omega)]
      exact parse_of_cut_header fat truncated nonempty cut
    obtain ⟨rest, rfl⟩ :=
      List.prefix_of_prefix_length_le (List.prefix_append _ _) truncated
        (by rwa [length_fatHeader])
    have behind := (List.prefix_append_right_inj _).mp truncated
    rw [List.length_append, length_fatHeader] at whole ⊢
    rcases Nat.lt_or_ge rest.length code.length with cut | enough
    · rw [if_neg fun lost => absurd lost.2.1 (by omega)]
      exact parse_of_cut_code fat (by omega) (code_size ▸ small) (by omega)
    obtain ⟨rest, rfl⟩ := List.prefix_of_prefix_length_le (List.prefix_append _ _) behind enough
    have behind := (List.prefix_append_right_inj _).mp behind
    rw [List.length_append, ← Nat.add_assoc, end_eq]
    exact parse_of_cut_section code_size small none_iff behind (by rintro rfl; exact proper rfl)

/-- A method of five bytes with a finally handler around its first two instructions. -/
def finallyReturn : MethodBody where
  maxStack := 8
  initLocals := false
  localSignature := none
  instructions := [
    ⟨⟨0x00, "nop", .none⟩, 0, .none⟩,
    ⟨⟨0xDE, "leave.s", .shortBranch⟩, 0, .target 3⟩,
    ⟨⟨0xDC, "endfinally", .none⟩, 0, .none⟩,
    ⟨⟨0x2A, "ret", .none⟩, 0, .none⟩]
  regions := [⟨.finallyHandler, 0, some 2, 2, some 3⟩]

/-- What is written of it: the code ends at 17, the clause starts at 24. -/
def finallyReturnBytes : Bytes := [
  0x0B, 0x30, 8, 0, 5, 0, 0, 0, 0, 0, 0, 0, 0x00, 0xDE, 0x01, 0xDC, 0x2A, 0, 0, 0,
  0x41, 28, 0, 0, 2, 0, 0, 0, 0, 0, 0, 0, 3, 0, 0, 0, 3, 0, 0, 0, 1, 0, 0, 0, 0, 0, 0, 0]

/-- The body is cut in its code, within the first word of its section and right behind that word:
the cut in the middle goes unnoticed. -/
theorem parse_truncated_finallyReturn :
    finallyReturn.codeSize < 0x100000000 ∧
      finallyReturn.encode ⟨0⟩ = .ok finallyReturnBytes ∧
      RawBody.parse (finallyReturnBytes.take 16) = .error .outOfBounds ∧
      RawBody.parse (finallyReturnBytes.take 23) =
        .ok ⟨8, false, ⟨0⟩, 12, [0x00, 0xDE, 0x01, 0xDC, 0x2A], []⟩ ∧
      RawBody.parse (finallyReturnBytes.take 24) = .error .outOfBounds := by
  have small : finallyReturn.codeSize < 0x100000000 := by decide
  have encoded : finallyReturn.encode ⟨0⟩ = .ok finallyReturnBytes := rfl
  obtain ⟨code, code_eq, cut⟩ := parse_truncated small encoded
  cases code_eq
  exact ⟨small, encoded, cut _ (List.take_prefix 16 _) (by decide),
    cut _ (List.take_prefix 23 _) (by decide), cut _ (List.take_prefix 24 _) (by decide)⟩

/-- So it is not so that every truncation is noticed: one that leaves the code and three bytes of
the section's head is read as a body without its only clause. -/
theorem truncation_unnoticed :
    ¬ ∀ (body : MethodBody) (localsToken : Token) (data front : Bytes),
      body.encode localsToken = .ok data → front <+: data → front ≠ data →
        ∃ fault, RawBody.parse front = .error fault := by
  intro noticed
  obtain ⟨fault, refused⟩ := noticed finallyReturn ⟨0⟩ finallyReturnBytes
    (finallyReturnBytes.take 23) rfl (List.take_prefix 23 _) (by decide)
  cases refused

end MethodBody

end CilCapture.Body
