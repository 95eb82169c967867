import CilCapture.Proofs.Body.Stored
import CilCapture.Proofs.Il.RoundTrip
import CilCapture.Rehearsal.World
import CilCapture.Sweep.Constructor

/-!
# What is run as static constructor

The constructor that is chosen is code that the packer wrote and that the session runs, so the shape
that is asked of it is told by bytes here and not by the reader: `IsTrampoline`. The search meets
three kinds of constructor: one whose body starts the packer (`Starts`), one that is passed over
(`PassedOver`) and one whose body cannot be looked up. It ends at the first that is not passed over
(`firstTrampoline_append`), and every outcome is told by where that one stands
(`selectConstructor_exact`).

What a trampoline is in bytes follows from what is written of its two instructions: the reader and
the writer undo each other, so the code of a body that decodes to a call and a return is the bytes
of these (`decode_trampoline`). What stands behind the code, and which header is in front, make no
difference.

The list may go on behind the one that ends the search. That nothing there is looked at is said by
comparing the search with any other list that agrees up to that point (`firstTrampoline_congr`).
-/

namespace CilCapture.Sweep

open Body

/-! ## Trampolines by their bytes -/

/-- A body that can be read and whose code is a call of a method definition and a return. -/
structure IsTrampoline (data : Bytes) : Prop where
  readable : ∃ body, MethodBody.decode data = .ok body
  stored : ∃ low middle high : UInt8, Stored data [0x28, low, middle, high, 0x06, 0x2A]

/-- The check on instructions, spelled out: a call of a method definition and a return, nothing
else. -/
theorem isTrampoline_iff {instructions : List Il.Instruction} :
    isTrampoline instructions = true ↔
      ∃ call ret target, instructions = [call, ret] ∧ call.opcode.value = Il.Opcode.call ∧
        call.operand = .token target ∧ target.table = Token.methodTable ∧
        ret.opcode.value = Il.Opcode.ret := by
  unfold isTrampoline
  split
  next call ret =>
    obtain ⟨opcode, place, operand⟩ := call
    cases operand <;> simp [Il.Instruction.token?, and_assoc]
  next other =>
    constructor
    · intro same
      cases same
    · rintro ⟨call, ret, target, same, -⟩
      exact absurd same (other call ret)

/-- A token of the method table is spelled by three bytes of its row and the table. -/
theorem ofNat_four_of_methodTable {target : Token} (method : target.table = Token.methodTable) :
    ∃ low middle high : UInt8, Bytes.ofNat 4 target.value.toNat = [low, middle, high, 0x06] := by
  refine ⟨_, _, _, congrArg (_ :: _ :: _ :: [·]) ?_⟩
  rw [← UInt8.toNat_inj] at method ⊢
  rw [Token.table] at method
  have bounded := target.value.toNat_lt
  simp [Token.methodTable, Nat.shiftRight_eq_div_pow] at method ⊢
  omega

/-- The bytes that a trampoline was read from. -/
theorem eq_of_decode_of_isTrampoline {code : Bytes} {instructions : List Il.Instruction}
    (decoded : Il.decode code = .ok instructions) (shape : isTrampoline instructions = true) :
    ∃ low middle high : UInt8, code = [0x28, low, middle, high, 0x06, 0x2A] := by
  obtain ⟨⟨_, place, operand⟩, ⟨_, place', operand'⟩, target, rfl, call_eq, target_eq, method,
    ret_eq⟩ := isTrampoline_iff.mp shape
  have known := Il.known_of_decode decoded
  obtain rfl : _ = (⟨0x28, "call", .token⟩ : Il.Opcode) :=
    Il.Opcode.eq_of_value_eq (known _ (by simp)) (by decide) call_eq
  obtain rfl : _ = (⟨0x2A, "ret", .none⟩ : Il.Opcode) :=
    Il.Opcode.eq_of_value_eq (known _ (by simp)) (by decide) ret_eq
  obtain rfl : operand = .token target := target_eq
  obtain ⟨low, middle, high, spelled⟩ := ofNat_four_of_methodTable method
  obtain ⟨-, -, -, written⟩ := Il.encode_of_decode decoded
  cases operand'
  case none =>
    have same : [0x28] ++ Bytes.ofNat 4 target.value.toNat ++ [0x2A] = code :=
      Except.ok.inj written
    rw [spelled] at same
    exact ⟨low, middle, high, same.symm⟩
  all_goals cases written

/-- What the bytes of a trampoline are read as. -/
theorem decode_trampoline (low middle high : UInt8) :
    ∃ instructions, Il.decode [0x28, low, middle, high, 0x06, 0x2A] = .ok instructions ∧
      isTrampoline instructions = true := by
  refine ⟨[⟨⟨0x28, "call", .token⟩, 0,
      .token ⟨UInt32.ofNat (Bytes.toNat [low, middle, high, 0x06])⟩⟩,
    ⟨⟨0x2A, "ret", .none⟩, 5, .none⟩], rfl, ?_⟩
  refine isTrampoline_iff.mpr ⟨_, _, _, rfl, rfl, rfl, ?_, rfl⟩
  have := low.toNat_lt
  have := middle.toNat_lt
  have := high.toNat_lt
  rw [Token.table, ← UInt8.toNat_inj]
  simp [Bytes.toNat, Token.methodTable, Nat.shiftRight_eq_div_pow]
  omega

/-- A decoded body was parsed, and its instructions are those of the code found. -/
theorem parse_of_decode {data : Bytes} {body : MethodBody}
    (decoded : MethodBody.decode data = .ok body) :
    ∃ raw, RawBody.parse data = .ok raw ∧ Il.decode raw.code = .ok body.instructions := by
  obtain ⟨raw, parsed, decoded⟩ := bind_eq_ok.mp decoded
  obtain ⟨instructions, read, decoded⟩ := bind_eq_ok.mp decoded
  obtain ⟨regions, -, decoded⟩ := bind_eq_ok.mp decoded
  cases decoded
  exact ⟨raw, parsed, read⟩

/-- The test of a stored body is that of its bytes. -/
theorem storesTrampoline_iff {data : Bytes} :
    storesTrampoline data = true ↔ IsTrampoline data := by
  unfold storesTrampoline
  split
  next body decoded =>
    obtain ⟨raw, parsed, read⟩ := parse_of_decode decoded
    constructor
    · intro shape
      obtain ⟨low, middle, high, code_eq⟩ := eq_of_decode_of_isTrampoline read shape
      exact ⟨⟨body, decoded⟩, low, middle, high, code_eq ▸ stored_of_parse parsed⟩
    · rintro ⟨-, low, middle, high, stored⟩
      obtain ⟨instructions, known, shape⟩ := decode_trampoline low middle high
      rw [code_eq_of_stored stored parsed, known] at read
      cases read
      exact shape
  next fault failed =>
    constructor
    · intro same
      cases same
    · rintro ⟨⟨body, decoded⟩, -⟩
      cases failed.symm.trans decoded

/-! ## The search -/

section Search

variable {M W : Type} [ModuleStore M W]

/-- A constructor that the search leaves behind: it has no body, or one that is no trampoline,
perhaps because it cannot be read. -/
def PassedOver (module_ : M) (token : Token) : Prop :=
  ∃ stored, ModuleStore.methodBody token.row.toNat module_ = .ok stored ∧
    ∀ data ∈ stored, ¬ IsTrampoline data

/-- A constructor that starts the packer. -/
def Starts (module_ : M) (token : Token) : Prop :=
  ∃ data, ModuleStore.methodBody token.row.toNat module_ = .ok (some data) ∧ IsTrampoline data

/-- A constructor whose body cannot be looked up. -/
def Fails (module_ : M) (fault : Fault) (token : Token) : Prop :=
  ModuleStore.methodBody token.row.toNat module_ = .error fault

/-- Every constructor is of one of the three kinds. -/
theorem passedOver_or (module_ : M) (token : Token) :
    PassedOver module_ token ∨ Starts module_ token ∨ ∃ fault, Fails module_ fault token := by
  unfold PassedOver Starts Fails
  cases ModuleStore.methodBody token.row.toNat module_ with
  | error fault => exact .inr (.inr ⟨fault, rfl⟩)
  | ok stored =>
    cases stored with
    | none => exact .inl ⟨none, rfl, by simp⟩
    | some data =>
      by_cases shape : IsTrampoline data
      · exact .inr (.inl ⟨data, rfl, shape⟩)
      · exact .inl ⟨some data, rfl, by simpa using shape⟩

variable {module_ : M} {token : Token} {before : List Token}

/-- A constructor that is passed over has no part in the search. -/
theorem firstTrampoline_of_passedOver (passed : PassedOver module_ token) (rest : List Token) :
    firstTrampoline module_ (token :: rest) = firstTrampoline module_ rest := by
  obtain ⟨stored, found, other⟩ := passed
  rw [firstTrampoline, found]
  cases stored with
  | none => rfl
  | some data =>
    have no : ¬ storesTrampoline data = true := mt storesTrampoline_iff.mp (other data rfl)
    simp only [if_neg no]

/-- A constructor that starts the packer ends the search, and what follows is not read. -/
theorem firstTrampoline_of_starts (starts : Starts module_ token) (rest : List Token) :
    firstTrampoline module_ (token :: rest) = .ok (some token) := by
  obtain ⟨data, found, shape⟩ := starts
  rw [firstTrampoline, found]
  simp only [if_pos (storesTrampoline_iff.mpr shape)]

/-- A constructor that cannot be looked up ends the search with the fault. -/
theorem firstTrampoline_of_fails {fault : Fault} (fails : Fails module_ fault token)
    (rest : List Token) : firstTrampoline module_ (token :: rest) = .error fault := by
  rw [firstTrampoline, fails]

/-- The search goes past constructors that are passed over. -/
theorem firstTrampoline_append (passed : ∀ earlier ∈ before, PassedOver module_ earlier)
    (rest : List Token) :
    firstTrampoline module_ (before ++ rest) = firstTrampoline module_ rest := by
  induction before with
  | nil => rfl
  | cons first before ih =>
    obtain ⟨head, tail⟩ := List.forall_mem_cons.mp passed
    rw [List.cons_append, firstTrampoline_of_passedOver head, ih tail]

/-- If all are passed over nothing is found. -/
theorem firstTrampoline_of_all {tokens : List Token}
    (all : ∀ token ∈ tokens, PassedOver module_ token) :
    firstTrampoline module_ tokens = .ok none := by
  have ended := firstTrampoline_append all []
  rwa [List.append_nil] at ended

/-- A list is passed over as a whole, or up to the first constructor that is not, which decides. -/
theorem firstTrampoline_cases (module_ : M) (tokens : List Token) :
    ((∀ token ∈ tokens, PassedOver module_ token) ∧ firstTrampoline module_ tokens = .ok none) ∨
      ∃ before token after, tokens = before ++ token :: after ∧
        (∀ earlier ∈ before, PassedOver module_ earlier) ∧
        ((Starts module_ token ∧ firstTrampoline module_ tokens = .ok (some token)) ∨
          ∃ fault, Fails module_ fault token ∧ firstTrampoline module_ tokens = .error fault) := by
  rcases @forall_or_first _ (PassedOver module_) tokens with
    all | ⟨before, token, after, rfl, passed, ends⟩
  · exact .inl ⟨all, firstTrampoline_of_all all⟩
  · refine .inr ⟨before, token, after, rfl, passed, ?_⟩
    rw [firstTrampoline_append passed]
    rcases (passedOver_or module_ token).resolve_left ends with starts | ⟨fault, fails⟩
    · exact .inl ⟨starts, firstTrampoline_of_starts starts after⟩
    · exact .inr ⟨fault, fails, firstTrampoline_of_fails fails after⟩

/-- The search finds just the first constructor that starts the packer, with none before it that
fails. -/
theorem firstTrampoline_eq_some_iff {tokens : List Token} :
    firstTrampoline module_ tokens = .ok (some token) ↔
      ∃ before after, tokens = before ++ token :: after ∧
        (∀ earlier ∈ before, PassedOver module_ earlier) ∧ Starts module_ token := by
  constructor
  · intro found
    rcases firstTrampoline_cases module_ tokens with ⟨-, ended⟩ |
      ⟨before, ending, after, split, passed, ⟨starts, found'⟩ | ⟨fault, -, failed⟩⟩
    · cases found.symm.trans ended
    · cases found.symm.trans found'
      exact ⟨before, after, split, passed, starts⟩
    · cases found.symm.trans failed
  · rintro ⟨before, after, rfl, passed, starts⟩
    rw [firstTrampoline_append passed, firstTrampoline_of_starts starts]

/-- The search fails just for the first constructor that cannot be looked up, with none before it
that starts the packer. -/
theorem firstTrampoline_eq_error_iff {tokens : List Token} {fault : Fault} :
    firstTrampoline module_ tokens = .error fault ↔
      ∃ before failing after, tokens = before ++ failing :: after ∧
        (∀ earlier ∈ before, PassedOver module_ earlier) ∧ Fails module_ fault failing := by
  constructor
  · intro failed
    rcases firstTrampoline_cases module_ tokens with ⟨-, ended⟩ |
      ⟨before, ending, after, split, passed, ⟨-, found⟩ | ⟨other, fails, failed'⟩⟩
    · cases failed.symm.trans ended
    · cases failed.symm.trans found
    · cases failed.symm.trans failed'
      exact ⟨before, ending, after, split, passed, fails⟩
  · rintro ⟨before, failing, after, rfl, passed, fails⟩
    rw [firstTrampoline_append passed, firstTrampoline_of_fails fails]

/-- The search comes back with nothing just when all constructors are passed over. -/
theorem firstTrampoline_eq_none_iff {tokens : List Token} :
    firstTrampoline module_ tokens = .ok none ↔
      ∀ token ∈ tokens, PassedOver module_ token := by
  refine ⟨fun ended => ?_, firstTrampoline_of_all⟩
  rcases firstTrampoline_cases module_ tokens with ⟨all, -⟩ |
    ⟨before, ending, after, -, -, ⟨-, found⟩ | ⟨fault, -, failed⟩⟩
  · exact all
  · cases ended.symm.trans found
  · cases ended.symm.trans failed

/-- A search that ends among some constructors reads their bodies and no others: any store that has
the same bodies there gives the same answer, whatever constructors it has after them. -/
theorem firstTrampoline_congr {M' W' : Type} [ModuleStore M' W'] {other : M'} {read : List Token}
    (same : ∀ token ∈ read, ModuleStore.methodBody token.row.toNat other =
      ModuleStore.methodBody token.row.toNat module_)
    (ends : ∃ token ∈ read, ¬ PassedOver module_ token) (unread unread' : List Token) :
    firstTrampoline other (read ++ unread') = firstTrampoline module_ (read ++ unread) := by
  induction read with
  | nil =>
    obtain ⟨token, mem, -⟩ := ends
    cases mem
  | cons first read ih =>
    obtain ⟨here, there⟩ := List.forall_mem_cons.mp same
    rcases passedOver_or module_ first with passed | starts | ⟨fault, fails⟩
    · have later : ∃ token ∈ read, ¬ PassedOver module_ token := by
        obtain ⟨token, mem, ending⟩ := ends
        rcases List.mem_cons.mp mem with rfl | mem
        · exact absurd passed ending
        · exact ⟨token, mem, ending⟩
      have passed' : PassedOver other first := by
        rwa [PassedOver, here]
      rw [List.cons_append, List.cons_append, firstTrampoline_of_passedOver passed,
        firstTrampoline_of_passedOver passed', ih there later]
    · have starts' : Starts other first := by
        rwa [Starts, here]
      rw [List.cons_append, List.cons_append, firstTrampoline_of_starts starts,
        firstTrampoline_of_starts starts']
    · have fails' : Fails other fault first := here.trans fails
      rw [List.cons_append, List.cons_append, firstTrampoline_of_fails fails,
        firstTrampoline_of_fails fails']

/-! ## The choice -/

/-- The constructor of the module itself is chosen, whatever the bodies are. Without one the first
constructor of a type is chosen that is not passed over, provided that it starts the packer: a
lookup that fails there fails the choice, and no choice is made only if all are passed over. What is
after the constructor where the search ends makes no difference, not even its being there. -/
theorem selectConstructor_exact (module_ : M) :
    (∀ token, ModuleStore.globalConstructor module_ = some token →
      selectConstructor module_ = .ok (some token)) ∧
    (ModuleStore.globalConstructor module_ = none →
      (∀ token, selectConstructor module_ = .ok (some token) ↔
        ∃ before after, ModuleStore.typeConstructors module_ = before ++ token :: after ∧
          (∀ earlier ∈ before, PassedOver module_ earlier) ∧ Starts module_ token) ∧
      (∀ fault, selectConstructor module_ = .error fault ↔
        ∃ before failing after, ModuleStore.typeConstructors module_ = before ++ failing :: after ∧
          (∀ earlier ∈ before, PassedOver module_ earlier) ∧ Fails module_ fault failing) ∧
      (selectConstructor module_ = .ok none ↔
        ∀ token ∈ ModuleStore.typeConstructors module_, PassedOver module_ token) ∧
      ∀ (M' W' : Type) [ModuleStore M' W'] (other : M') (read unread unread' : List Token),
        ModuleStore.globalConstructor other = none →
        ModuleStore.typeConstructors module_ = read ++ unread →
        ModuleStore.typeConstructors other = read ++ unread' →
        (∀ token ∈ read, ModuleStore.methodBody token.row.toNat other =
          ModuleStore.methodBody token.row.toNat module_) →
        (∃ token ∈ read, ¬ PassedOver module_ token) →
          selectConstructor other = selectConstructor module_) := by
  refine ⟨fun token given => by rw [selectConstructor, given], fun absent => ?_⟩
  have searched : selectConstructor module_ =
      firstTrampoline module_ (ModuleStore.typeConstructors module_) := by
    rw [selectConstructor, absent]
  rw [searched]
  refine ⟨fun _ => firstTrampoline_eq_some_iff, fun _ => firstTrampoline_eq_error_iff,
    firstTrampoline_eq_none_iff, ?_⟩
  intro M' W' _ other read unread unread' absent' types types' same ends
  rw [selectConstructor, absent']
  dsimp only
  rw [types, types', firstTrampoline_congr same ends]

end Search

/-- A module whose types have four constructors: one without a body, one that cannot be read, one
that calls what is no method definition, and one that starts the packer from behind a fat header.
A fifth row is not there. -/
def packedModule : Rehearsal.TableModule := { Rehearsal.TableModule.empty with
  bodies := [none, some [0xFF], some [0x1A, 0x28, 1, 0, 0, 0x0A, 0x2A],
    some [0x03, 0x30, 8, 0, 6, 0, 0, 0, 0, 0, 0, 0, 0x28, 1, 0, 0, 6, 0x2A, 0xFF]]
  typeConstructors := [.ofMethod 1, .ofMethod 2, .ofMethod 3, .ofMethod 4, .ofMethod 5] }

/-- The fourth constructor is found, so the fifth row, which is not there, is not asked for; without
the fourth nothing else in the list will do. -/
theorem selectConstructor_exact_packed :
    ModuleStore.globalConstructor packedModule = none ∧
    selectConstructor packedModule = .ok (some (.ofMethod 4)) ∧
    selectConstructor { packedModule with
      typeConstructors := packedModule.typeConstructors.take 4 } =
        .ok (some (.ofMethod 4)) := by
  have absent : ModuleStore.globalConstructor packedModule = none := rfl
  obtain ⟨chosen, -, -, congr⟩ := (selectConstructor_exact packedModule).2 absent
  have unstarted (data : Bytes) (other : storesTrampoline data = false) : ¬ IsTrampoline data := by
    rw [← storesTrampoline_iff, other]
    decide
  have passed : ∀ earlier ∈ packedModule.typeConstructors.take 3,
      PassedOver packedModule earlier := by
    have first : PassedOver packedModule (.ofMethod 1) := ⟨none, rfl, by simp⟩
    have second : PassedOver packedModule (.ofMethod 2) :=
      ⟨some _, rfl, by rintro _ ⟨⟩; exact unstarted _ rfl⟩
    have third : PassedOver packedModule (.ofMethod 3) :=
      ⟨some _, rfl, by rintro _ ⟨⟩; exact unstarted _ rfl⟩
    simpa [packedModule] using ⟨first, second, third⟩
  have starts : Starts packedModule (.ofMethod 4) := ⟨_, rfl, storesTrampoline_iff.mp rfl⟩
  have selected : selectConstructor packedModule = .ok (some (.ofMethod 4)) :=
    (chosen _).mpr ⟨packedModule.typeConstructors.take 3, [.ofMethod 5], rfl, passed, starts⟩
  refine ⟨absent, selected, ?_⟩
  rw [← selected]
  refine congr _ _ _ (packedModule.typeConstructors.take 4) [.ofMethod 5] [] rfl rfl rfl
    (fun _ _ => rfl) ⟨.ofMethod 4, by decide, ?_⟩
  rintro ⟨stored, found, other⟩
  obtain ⟨data, found', shape⟩ := starts
  cases found.symm.trans found'
  exact other data rfl shape

end CilCapture.Sweep
