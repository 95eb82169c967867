import CilCapture.Body.Assembly
import CilCapture.Proofs.Il.Stream

/-!
# Resolved tokens in their streams

Which tokens a resolver is asked for, and what its answers do to the bytes. `tokenSites` lists the
tokens of a stream in order, with the places of their bytes; `resolveInstructions_run` says that
resolving is asking for these, one after the other. `Patched` says of two strings that they differ
at most in the words at given places, and `exists_patchedFrom` that a stream with resolved tokens is
such a string.

Three descriptions of the same change meet here: instructions with other tokens (`Retokened`), bytes
with other words (`PatchedFrom`), and the statement for a reader, byte by byte (`Patched`). The
first two are inductive and go along the stream; `PatchedFrom.pointwise` leads from the second to
the third.

A resolver may be any computation with a state and may fail. That no instruction moves is shown for
every list of answers, so it does not depend on what the resolver does.
-/

namespace CilCapture.Body

/-! ## Sites -/

/-- A token that a resolver is asked for, with its opcode and the place of its bytes. -/
structure TokenSite where
  opcode : Il.Opcode
  token : Token
  place : Nat
  deriving DecidableEq, Repr

/-- The token that a resolver is asked for, if there is one. -/
def askedToken? (instruction : Il.Instruction) : Option Token :=
  match instruction.operand with
  | .token token => if instruction.opcode.value = Il.Opcode.ldstr then none else some token
  | _ => none

/-- The tokens that a resolver is asked for in instructions of which the first stands at an
offset. -/
def tokenSitesFrom : (offset : Nat) → List Il.Instruction → List TokenSite
  | _, [] => []
  | offset, instruction :: rest =>
    let others := tokenSitesFrom (offset + instruction.size) rest
    match askedToken? instruction with
    | some token => ⟨instruction.opcode, token, offset + instruction.opcode.size⟩ :: others
    | none => others

/-- The tokens that a resolver is asked for in a stream. -/
def tokenSites (instructions : List Il.Instruction) : List TokenSite :=
  tokenSitesFrom 0 instructions

/-- The instructions with the tokens that were asked for replaced by others. -/
inductive Retokened : List Il.Instruction → List Token → List Il.Instruction → Prop
  | nil : Retokened [] [] []
  | kept {instruction : Il.Instruction} {instructions resolved : List Il.Instruction}
      {tokens : List Token} (plain : askedToken? instruction = none)
      (rest : Retokened instructions tokens resolved) :
      Retokened (instruction :: instructions) tokens (instruction :: resolved)
  | asked {instruction : Il.Instruction} {old : Token} (new : Token)
      {instructions resolved : List Il.Instruction} {tokens : List Token}
      (site : askedToken? instruction = some old) (rest : Retokened instructions tokens resolved) :
      Retokened (instruction :: instructions) (new :: tokens)
        ({ instruction with operand := .token new } :: resolved)

/-- A site where a resolver is asked has the token as its operand. -/
theorem operand_of_askedToken? {instruction : Il.Instruction} {token : Token}
    (site : askedToken? instruction = some token) : instruction.operand = .token token := by
  obtain ⟨opcode, offset, operand⟩ := instruction
  unfold askedToken? at site
  cases operand <;> try cases site
  next old =>
    dsimp only at site
    split at site
    next => cases site
    next => rw [Option.some.inj site]

/-- Another token in its place takes the same room. -/
theorem size_of_askedToken? {instruction : Il.Instruction} {old : Token} (new : Token)
    (site : askedToken? instruction = some old) :
    Il.Instruction.size { instruction with operand := .token new } = instruction.size := by
  rw [Il.Instruction.size, Il.Instruction.size, operand_of_askedToken? site]

/-- Resolving tokens moves no instruction. -/
theorem Retokened.startsFrom_eq {instructions resolved : List Il.Instruction} {tokens : List Token}
    (retokened : Retokened instructions tokens resolved) (offset : Nat) :
    Il.startsFrom offset resolved = Il.startsFrom offset instructions := by
  induction retokened generalizing offset with
  | nil => rfl
  | kept plain rest ih => rw [Il.startsFrom, Il.startsFrom, ih]
  | asked new site rest ih =>
    rw [Il.startsFrom, Il.startsFrom, size_of_askedToken? new site, ih]

/-- Resolving tokens leaves the code as long as it was. -/
theorem Retokened.codeSize_eq {instructions resolved : List Il.Instruction} {tokens : List Token}
    (retokened : Retokened instructions tokens resolved) :
    Il.codeSize resolved = Il.codeSize instructions := by
  induction retokened with
  | nil => rfl
  | kept plain rest ih => rw [Il.codeSize, Il.codeSize, ih]
  | asked new site rest ih =>
    rw [Il.codeSize, Il.codeSize, size_of_askedToken? new site, ih]

/-- Tokens that are replaced by themselves leave the instructions as they are. -/
theorem Retokened.eq_of_same {instructions resolved : List Il.Instruction} {tokens : List Token}
    (retokened : Retokened instructions tokens resolved) {offset : Nat}
    (same : tokens = (tokenSitesFrom offset instructions).map (·.token)) :
    resolved = instructions := by
  induction retokened generalizing offset with
  | nil => rfl
  | kept plain rest ih =>
    rw [tokenSitesFrom, plain] at same
    rw [ih same]
  | @asked instruction old new _ _ _ site rest ih =>
    rw [tokenSitesFrom, site] at same
    obtain ⟨new_eq, others⟩ := List.cons.inj same
    rw [ih others, new_eq]
    obtain ⟨opcode, place, operand⟩ := instruction
    have operand_eq := operand_of_askedToken? site
    dsimp only at operand_eq ⊢
    rw [operand_eq]

/-! ## Asking -/

section

variable {m : Type → Type} [Monad m]

/-- At a site the resolver is asked for the token, with the opcode, and the answer is put in its
place. -/
theorem resolveInstruction_of_askedToken? (resolve : TokenResolver m)
    {instruction : Il.Instruction} {token : Token} (site : askedToken? instruction = some token) :
    resolveInstruction resolve instruction = do
      let resolved ← resolve instruction.opcode token
      return { instruction with operand := .token resolved } := by
  have operand_eq := operand_of_askedToken? site
  rw [askedToken?, operand_eq] at site
  rw [resolveInstruction, operand_eq]
  dsimp only at site ⊢
  split at site
  next => cases site
  next other => rw [if_neg other]

/-- Away from the sites an instruction is passed on without a question. -/
theorem resolveInstruction_of_plain (resolve : TokenResolver m) {instruction : Il.Instruction}
    (plain : askedToken? instruction = none) :
    resolveInstruction resolve instruction = pure instruction := by
  obtain ⟨opcode, offset, operand⟩ := instruction
  cases operand <;> try rfl
  next token =>
    unfold askedToken? at plain
    unfold resolveInstruction
    dsimp only at plain ⊢
    split at plain
    next loads => rw [if_pos loads]
    next => cases plain

end

section

variable {ρ : Type} {resolve : TokenResolver (EStateM Abort ρ)}

/-- Resolving the tokens of instructions is asking for them in order. -/
theorem resolveInstructions_run {instructions resolved : List Il.Instruction} {state final : ρ}
    (done : resolveInstructions resolve instructions state = .ok resolved final) (offset : Nat) :
    ∃ tokens, (tokenSitesFrom offset instructions).mapM
        (fun site => resolve site.opcode site.token) state = .ok tokens final ∧
      Retokened instructions tokens resolved := by
  induction instructions generalizing resolved state offset with
  | nil =>
    cases done
    exact ⟨[], rfl, .nil⟩
  | cons instruction rest ih =>
    rw [resolveInstructions, run_bind_eq_ok] at done
    obtain ⟨one, middle, head, done⟩ := done
    rw [run_bind_eq_ok] at done
    obtain ⟨others, last, tail, done⟩ := done
    cases done
    obtain ⟨tokens, answers, retokened⟩ := ih tail (offset + instruction.size)
    cases site : askedToken? instruction with
    | none =>
      rw [resolveInstruction_of_plain resolve site] at head
      cases head
      refine ⟨tokens, ?_, .kept site retokened⟩
      rwa [tokenSitesFrom, site]
    | some token =>
      rw [resolveInstruction_of_askedToken? resolve site, run_bind_eq_ok] at head
      obtain ⟨new, between, answer, head⟩ := head
      cases head
      refine ⟨new :: tokens, ?_, .asked new site retokened⟩
      rw [tokenSitesFrom, site, List.mapM_cons, run_bind_eq_ok]
      refine ⟨new, middle, answer, ?_⟩
      rw [run_bind_eq_ok]
      exact ⟨tokens, final, answers, rfl⟩

end

/-! ## Bytes -/

/-- Two strings from an offset on that agree outside the words at some places, which hold some
tokens in the second one. -/
inductive PatchedFrom : (offset : Nat) → Bytes → Bytes → List Nat → List Token → Prop
  | nil (offset : Nat) : PatchedFrom offset [] [] [] []
  | same {offset : Nat} (part : Bytes) {code patched : Bytes} {places : List Nat}
      {tokens : List Token}
      (rest : PatchedFrom (offset + part.length) code patched places tokens) :
      PatchedFrom offset (part ++ code) (part ++ patched) places tokens
  | word {offset : Nat} (old new : Token) {code patched : Bytes} {places : List Nat}
      {tokens : List Token} (rest : PatchedFrom (offset + 4) code patched places tokens) :
      PatchedFrom offset (Bytes.ofNat 4 old.value.toNat ++ code)
        (Bytes.ofNat 4 new.value.toNat ++ patched) (offset :: places) (new :: tokens)

/-- Two strings of one length, the second of which holds tokens at places and else what the first
one does. -/
structure Patched (code patched : Bytes) (places : List Nat) (tokens : List Token) : Prop where
  length_eq : patched.length = code.length
  holds : List.Forall₂ (fun place token =>
    (patched.drop place).take 4 = Bytes.ofNat 4 token.value.toNat) places tokens
  keeps : ∀ index, (∀ place ∈ places, index < place ∨ place + 4 ≤ index) →
    patched[index]? = code[index]?

namespace PatchedFrom

variable {offset : Nat} {code patched : Bytes} {places : List Nat} {tokens : List Token}

/-- Patching words keeps the length. -/
theorem length_eq (related : PatchedFrom offset code patched places tokens) :
    patched.length = code.length := by
  induction related with
  | nil => rfl
  | same part rest ih => rw [List.length_append, List.length_append, ih]
  | word old new rest ih =>
    rw [List.length_append, List.length_append, ih, Bytes.length_ofNat, Bytes.length_ofNat]

/-- Each place holds the word of its token. -/
theorem holds (related : PatchedFrom offset code patched places tokens) :
    List.Forall₂ (fun place token => offset ≤ place ∧
      (patched.drop (place - offset)).take 4 = Bytes.ofNat 4 token.value.toNat) places tokens := by
  induction related with
  | nil => exact .nil
  | @same offset part _ _ _ _ rest ih =>
    refine ih.imp fun place token ⟨behind, held⟩ => ⟨by omega, ?_⟩
    have split : place - offset = part.length + (place - (offset + part.length)) := by omega
    rw [split, ← List.drop_drop, List.drop_left, held]
  | @word offset old new _ _ _ _ rest ih =>
    refine .cons ⟨Nat.le_refl _, ?_⟩ (ih.imp fun place token ⟨behind, held⟩ => ⟨by omega, ?_⟩)
    · rw [Nat.sub_self, List.drop_zero, List.take_append_of_le_length (by simp)]
      exact List.take_of_length_le (by simp)
    · have split :
          place - offset = (Bytes.ofNat 4 new.value.toNat).length + (place - (offset + 4)) := by
        rw [Bytes.length_ofNat]
        omega
      rw [split, ← List.drop_drop, List.drop_left, held]

/-- A byte outside the words is the one that was there. -/
theorem keeps (related : PatchedFrom offset code patched places tokens) (index : Nat)
    (outside : ∀ place ∈ places, offset + index < place ∨ place + 4 ≤ offset + index) :
    patched[index]? = code[index]? := by
  induction related generalizing index with
  | nil => rfl
  | @same offset part _ _ _ _ rest ih =>
    rcases Nat.lt_or_ge index part.length with inside | behind
    · rw [List.getElem?_append_left inside, List.getElem?_append_left inside]
    · rw [List.getElem?_append_right behind, List.getElem?_append_right behind]
      refine ih _ fun place mem => ?_
      have := outside place mem
      omega
  | @word offset old new _ _ _ _ rest ih =>
    obtain ⟨here, others⟩ := List.forall_mem_cons.mp outside
    have behind : 4 ≤ index := by omega
    rw [List.getElem?_append_right (by simpa using behind),
      List.getElem?_append_right (by simpa using behind), Bytes.length_ofNat, Bytes.length_ofNat]
    refine ih _ fun place mem => ?_
    have := others place mem
    omega

/-- Patched all along from the first byte on, two strings are related as `Patched` says byte by
byte. -/
theorem pointwise (related : PatchedFrom 0 code patched places tokens) :
    Patched code patched places tokens :=
  ⟨related.length_eq, related.holds.imp fun _ _ held => held.2,
    fun index outside => related.keeps index (by simpa using outside)⟩

end PatchedFrom

private theorem eq_of_immediateBytes?_token {kind : Il.OperandKind} {token : Token}
    {written : Bytes} (spelled : (Il.Operand.token token).immediateBytes? kind = some written) :
    kind = .token ∧ written = Bytes.ofNat 4 token.value.toNat := by
  cases kind <;> cases spelled
  exact ⟨rfl, rfl⟩

/-- Instructions with resolved tokens are spelled by the bytes with the resolved tokens in them. -/
theorem exists_patchedFrom {starts : List Nat} {offset : Nat} {scanned : List Il.Scanned}
    {code : Bytes} {instructions resolved : List Il.Instruction} {tokens : List Token}
    (spelled : Il.Spelled offset scanned code)
    (named : List.Forall₂ (Il.Scanned.Names starts) scanned instructions)
    (retokened : Retokened instructions tokens resolved) :
    ∃ scanned' patched, Il.Spelled offset scanned' patched ∧
      List.Forall₂ (Il.Scanned.Names starts) scanned' resolved ∧
      PatchedFrom offset code patched ((tokenSitesFrom offset instructions).map (·.place))
        tokens := by
  induction retokened generalizing offset scanned code with
  | nil =>
    cases named
    cases spelled
    exact ⟨[], [], .nil offset, .nil, .nil offset⟩
  | @kept instruction _ _ _ plain rest ih =>
    obtain ⟨one, others, ⟨opcode_eq, head⟩, tail, rfl⟩ := List.forall₂_cons_right_iff.mp named
    cases spelled with
    | @cons opcode _ operand written _ bytes spells after =>
      dsimp only at opcode_eq head
      subst opcode_eq
      obtain ⟨scanned', patched, spelled', named', related⟩ := ih after tail
      refine ⟨⟨instruction.opcode, offset, operand⟩ :: scanned', _, .cons spells spelled',
        .cons ⟨rfl, head⟩ named', ?_⟩
      rw [tokenSitesFrom, plain]
      refine .same (instruction.opcode.encode ++ written) ?_
      rw [Il.Instruction.size_eq head spells]
      rwa [List.length_append, Il.Opcode.length_encode, ← Nat.add_assoc]
  | @asked instruction old new _ _ _ site rest ih =>
    obtain ⟨one, others, ⟨opcode_eq, head⟩, tail, rfl⟩ := List.forall₂_cons_right_iff.mp named
    cases spelled with
    | @cons opcode _ operand written _ bytes spells after =>
      dsimp only at opcode_eq head
      subst opcode_eq
      -- The operand is a token, so what spells it is its word.
      have size_eq := Il.Instruction.size_eq head spells
      rw [operand_of_askedToken? site] at head
      cases head
      obtain ⟨kind_eq, rfl⟩ := eq_of_immediateBytes?_token spells.immediateBytes?_eq
      rw [Bytes.length_ofNat] at after size_eq
      obtain ⟨scanned', patched, spelled', named', related⟩ := ih after tail
      have spelled_new : (Il.Operand.token new).immediateBytes? instruction.opcode.operand =
          some (Bytes.ofNat 4 new.value.toNat) := by rw [kind_eq]; rfl
      refine ⟨⟨instruction.opcode, offset, .immediate (.token new)⟩ :: scanned',
        instruction.opcode.encode ++ Bytes.ofNat 4 new.value.toNat ++ patched,
        .cons (.immediate spelled_new) ?_, .cons ⟨rfl, .immediate _⟩ named', ?_⟩
      · rwa [Bytes.length_ofNat]
      · rw [tokenSitesFrom, site, List.append_assoc, List.append_assoc]
        refine .same instruction.opcode.encode ?_
        rw [Il.Opcode.length_encode, size_eq, ← Nat.add_assoc]
        exact .word old new related

end CilCapture.Body
