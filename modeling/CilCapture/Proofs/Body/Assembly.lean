import CilCapture.Proofs.Body.Raw
import CilCapture.Proofs.Body.Region
import CilCapture.Proofs.Body.Tokens

/-!
# Assembled bodies

What is assembled from the parts of a method can be written, and the parts are read back from what
is written: code with the resolved tokens in it, clauses normalised, all else as it was
(`parse_encode_of_assemble`).

The theorem puts together what is shown elsewhere of each step: that resolving changes only the
words it was asked for (`Tokens`), that clauses come back normalised (`Region`), and that the
writer's bytes are parsed as the parts they were made of (`Raw`). The state of the resolver goes
through all of it, so the resolver may count, remember or fail.

The bounds that are assumed are those of the format: code below 4 GiB, and as many clauses as the
three bytes of a section's size can count. The bound on the stack is none of them, because an
assembly fails where it is exceeded.
-/

namespace CilCapture.Body

section

variable {ρ : Type} {resolve : TokenResolver (EStateM Abort ρ)}

/-- A step that only settles a result succeeds with its value, in the state it found. -/
theorem liftFault_run {α : Type} {result : Except Fault α} {value : α} {state final : ρ} :
    (liftFault result : EStateM Abort ρ α) state = .ok value final ↔
      result = .ok value ∧ state = final := by
  cases result with
  | ok found =>
    constructor
    · intro same
      cases same
      exact ⟨rfl, rfl⟩
    · rintro ⟨⟨⟩, rfl⟩
      rfl
  | error fault =>
    constructor
    · intro same
      cases same
    · rintro ⟨⟨⟩, -⟩

/-- The steps that made an assembled body. -/
structure Assembled (resolve : TokenResolver (EStateM Abort ρ)) (parts : Parts) (state final : ρ)
    (instructions : List Il.Instruction) (body : MethodBody) : Prop where
  fits : parts.maxStack ≤ 0xFFFF
  maxStack_eq : body.maxStack = parts.maxStack.toUInt16
  initLocals_eq : body.initLocals = parts.initLocals
  decoded : Il.decode parts.code = .ok instructions
  resolved : resolveInstructions resolve instructions state = .ok body.instructions final
  regions : parts.clauses.mapM (fun clause =>
    Region.ofClause clause (Il.layout body.instructions)) = .ok body.regions

/-- A body that came out of the assembler came out of each of its steps, and the state is the one
the resolver left. -/
theorem exists_assembled {parts : Parts} {state final : ρ} {body : MethodBody}
    {notices : List Notice} (done : assemble resolve parts state = .ok (body, notices) final) :
    ∃ instructions, Assembled resolve parts state final instructions body := by
  unfold assemble at done
  split at done
  next => cases done
  next fits =>
    obtain ⟨instructions, middle, decoding, done⟩ := run_bind_eq_ok.mp done
    obtain ⟨decoded, rfl⟩ := liftFault_run.mp decoding
    obtain ⟨resolved, last, resolving, done⟩ := run_bind_eq_ok.mp done
    obtain ⟨regions, after, mapping, done⟩ := run_bind_eq_ok.mp done
    obtain ⟨mapped, rfl⟩ := liftFault_run.mp mapping
    cases done
    exact ⟨instructions, UInt32.not_lt.mp fits, rfl, rfl, decoded, resolving, mapped⟩

/-- A body that was assembled can be written under every token for its locals, and what is written
is read as the parts that it was made of. The code has the length it had and differs at most in the
words of the tokens that the resolver was asked for, which hold its answers; a resolver that keeps
every token leaves the code as it was. -/
theorem parse_encode_of_assemble {parts : Parts} {state final : ρ} {body : MethodBody}
    {notices : List Notice} (small : parts.code.length < 0x100000000)
    (few : parts.clauses.length ≤ 699050)
    (done : assemble resolve parts state = .ok (body, notices) final) (localsToken : Token) :
    ∃ data raw, body.encode localsToken = .ok data ∧ RawBody.parse data = .ok raw ∧
      raw.maxStack.toUInt32 = parts.maxStack ∧ raw.initLocals = parts.initLocals ∧
      raw.localsToken = localsToken ∧ raw.headerSize = 12 ∧
      raw.clauses = parts.clauses.map Clause.normalise ∧
      (∃ instructions tokens, Il.decode parts.code = .ok instructions ∧
        (tokenSites instructions).mapM (fun site => resolve site.opcode site.token) state =
          .ok tokens final ∧
        Patched parts.code raw.code ((tokenSites instructions).map (·.place)) tokens) ∧
      (resolve = TokenResolver.identity → raw.code = parts.code) := by
  obtain ⟨instructions, fits, maxStack_eq, initLocals_eq, decoded, resolved, regions⟩ :=
    exists_assembled done
  obtain ⟨tokens, asked, retokened⟩ := resolveInstructions_run resolved 0
  obtain ⟨⟨scanned, spelled, -, named⟩, -⟩ := Il.decode_eq_ok_iff.mp decoded
  obtain ⟨scanned', patched, spelled', named', related⟩ :=
    exists_patchedFrom spelled named retokened
  -- a resolver changes tokens only, hence no instruction's size and no start
  have same_starts : Il.starts body.instructions = Il.starts instructions :=
    retokened.startsFrom_eq 0
  have encoded : Il.encode body.instructions = .ok patched := by
    rw [Il.encode_eq_ok_iff, same_starts]
    exact ⟨scanned', spelled', named'⟩
  have code_size : patched.length = Il.codeSize body.instructions := spelled'.length_eq named'
  have patched_small : patched.length < 0x100000000 := by rwa [related.length_eq]
  have clauses_eq := mapM_toClause_of_mapM_ofClause
    (by rwa [layoutSize_layout, ← code_size]) regions
  -- as many clauses as the bound allows fill one section, whose size has 24 bits
  have section_fits : 4 + fatClauseSize * (parts.clauses.map Clause.normalise).length ≤
      greatestSection := by
    rw [List.length_map, fatClauseSize, greatestSection]
    omega
  obtain ⟨data, written, parsed⟩ :=
    parse_of_encode encoded clauses_eq patched_small section_fits localsToken
  refine ⟨data, _, written, parsed, ?_, initLocals_eq, rfl, rfl, rfl,
    ⟨instructions, tokens, decoded, asked, related.pointwise⟩, fun keeps => ?_⟩
  · have := UInt32.le_iff_toNat_le.mp fits
    rw [maxStack_eq, ← UInt32.toNat_inj, UInt16.toNat_toUInt32, UInt32.toNat_toUInt16]
    exact Nat.mod_eq_of_lt (Nat.lt_succ_of_le this)
  -- under the identity the answers are the tokens asked for
  · subst keeps
    have tokens_eq : tokens = (tokenSites instructions).map (·.token) := by
      have kept : (tokenSites instructions).mapM (fun site =>
          (TokenResolver.identity site.opcode site.token : EStateM Abort ρ Token)) =
          pure ((tokenSites instructions).map (·.token)) := List.mapM_pure
      have same := (congrFun kept state).symm.trans asked
      cases same
      rfl
    have unchanged : Il.encode instructions = .ok parts.code :=
      Il.encode_eq_ok_iff.mpr ⟨scanned, spelled, named⟩
    rw [retokened.eq_of_same tokens_eq, unchanged] at encoded
    exact (Except.ok.inj encoded).symm

end

/-- A method that loads a string and calls another one in a block with a cleanup, the flags of whose
clause say more than its kind. -/
def guardedCall : Parts where
  code := [0x72, 1, 0, 0, 0x70, 0x26, 0x28, 2, 0, 0, 0x0A, 0xDE, 0x01, 0xDC, 0x2A]
  maxStack := 8
  initLocals := true
  locals := some [0x07, 0x01, 0x08]
  clauses := [⟨0x12, 0, 13, 13, 1, 7⟩]

/-- A resolver that numbers its answers. -/
def numbering : TokenResolver (EStateM Abort UInt32) := fun _ token => do
  let count ← get
  set (count + 1)
  return ⟨token.value + count⟩

/-- The resolver here is asked once, for the call: the string's word stays, and the clause comes
back with the flags and the word of its kind. -/
theorem parse_encode_of_assemble_guardedCall :
    ∃ body data raw, assemble numbering guardedCall 5 = .ok (body, []) 6 ∧
      body.encode ⟨0x11000001⟩ = .ok data ∧ RawBody.parse data = .ok raw ∧
      raw.maxStack = 8 ∧ raw.clauses = [⟨2, 0, 13, 13, 1, 0⟩] ∧
      Patched guardedCall.code raw.code [7] [⟨0x0A000007⟩] := by
  obtain ⟨body, done⟩ : ∃ body, assemble numbering guardedCall 5 = .ok (body, []) 6 := ⟨_, rfl⟩
  obtain ⟨data, raw, encoded, parsed, maxStack_eq, -, -, -, clauses_eq,
    ⟨instructions, tokens, decoded, asked, patched⟩, -⟩ :=
    parse_encode_of_assemble (by decide) (by decide) done ⟨0x11000001⟩
  have known : Il.decode guardedCall.code = .ok [
      ⟨⟨0x72, "ldstr", .token⟩, 0, .token ⟨0x70000001⟩⟩,
      ⟨⟨0x26, "pop", .none⟩, 5, .none⟩,
      ⟨⟨0x28, "call", .token⟩, 6, .token ⟨0x0A000002⟩⟩,
      ⟨⟨0xDE, "leave.s", .shortBranch⟩, 11, .target 5⟩,
      ⟨⟨0xDC, "endfinally", .none⟩, 13, .none⟩,
      ⟨⟨0x2A, "ret", .none⟩, 14, .none⟩] := by decide +kernel
  cases known.symm.trans decoded
  cases asked
  have maxStack : raw.maxStack = 8 := by
    rw [← UInt16.toNat_inj, ← UInt16.toNat_toUInt32, maxStack_eq]
    rfl
  exact ⟨body, data, raw, done, encoded, parsed, maxStack, clauses_eq, patched⟩

end CilCapture.Body
