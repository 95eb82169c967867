import CilCapture.Proofs.Machine.Basic
import CilCapture.Proofs.Il.Stream

/-!
# Reading a stream by machine

A machine reads a stream in a loop, from a place that moves on, and keeps the offsets of the
instructions and the jumps it has seen in lists beside the instructions. A second loop goes over the
jumps and puts the indices of their targets into the instructions. That comes to what `decode` comes
to (`decodeStream_eq`); so does the layout of what was decoded (`layoutOf_eq`).

The two loops are one recursion in the reader. They agree because the first loop only appends to its
lists (`Draft.append`), so what it has collected after some instructions is what the reader scanned,
and because the second only replaces operands at places where a jump was seen.
-/

namespace CilCapture.Machine

open Il

/-! ## Instructions -/

def readOpcode (code : Bytes) (offset : Nat) : Machine (Opcode × Nat) := do
  let (first, place) ← readAt 1 code offset
  let (value, place) ←
    if first = Opcode.escape.toNat then do
      let (second, place) ← readAt 1 code place
      pure (0xFE00 + second, place)
    else pure (first, place)
  match Opcode.ofValue? (UInt16.ofNat value) with
  | some opcode => return (opcode, place)
  | none => throw (.fault (.malformed (.unknownOpcode (UInt16.ofNat value) offset)))

/-- Where a jump of the instruction at `offset` goes from a place. -/
def branchTarget (code : Bytes) (offset place : Nat) (displacement : Int) : Machine Nat := do
  let target ← addSigned (Address.signed place) displacement
  if target < 0 ∨ Address.signed code.length ≤ target then
    throw (.fault (.malformed (.branchLeaves offset target)))
  return Address.wrap target

def readDisplacements (code : Bytes) : (count place : Nat) → Machine (List Int × Nat)
  | 0, place => return ([], place)
  | count + 1, place => do
    let (bits, place) ← readAt 4 code place
    let (displacements, place) ← readDisplacements code count place
    return (displacement32 bits :: displacements, place)

/-- The operand of an opcode and the offsets that it jumps to; a jump has no operand yet. -/
def readOperand (code : Bytes) (offset : Nat) (kind : OperandKind) (place : Nat) :
    Machine ((Operand × List Nat) × Nat) :=
  let immediate (make : Nat → Operand) : Machine ((Operand × List Nat) × Nat) := do
    let (bits, place) ← readAt kind.size code place
    return ((make bits, []), place)
  match kind with
  | .none => return ((.none, []), place)
  | .int8 => immediate fun bits => .int8 (UInt8.ofNat bits).toInt8
  | .uint8 => immediate fun bits => .uint8 (UInt8.ofNat bits)
  | .uint16 => immediate fun bits => .uint16 (UInt16.ofNat bits)
  | .int32 => immediate fun bits => .int32 (UInt32.ofNat bits).toInt32
  | .int64 => immediate fun bits => .int64 (UInt64.ofNat bits).toInt64
  | .float32 => immediate fun bits => .float32 (UInt32.ofNat bits)
  | .float64 => immediate fun bits => .float64 (UInt64.ofNat bits)
  | .token => immediate fun bits => .token ⟨UInt32.ofNat bits⟩
  | .shortBranch => do
    let (bits, place) ← readAt 1 code place
    let target ← branchTarget code offset place (displacement8 bits)
    return ((.none, [target]), place)
  | .branch => do
    let (bits, place) ← readAt 4 code place
    let target ← branchTarget code offset place (displacement32 bits)
    return ((.none, [target]), place)
  | .switch => do
    let (count, place) ← readAt 4 code place
    if (code.length - place) / 4 < count then
      throw (.fault (.malformed (.switchTooLong offset count)))
    let (displacements, place) ← readDisplacements code count place
    let targets ← displacements.mapM (branchTarget code offset place)
    return ((.none, targets), place)

/-- The instruction at an offset, the offsets that it jumps to, and the place behind it. -/
def readInstruction (code : Bytes) (offset : Nat) : Machine ((Instruction × List Nat) × Nat) := do
  let (opcode, place) ← readOpcode code offset
  let ((operand, targets), place) ← readOperand code offset opcode.operand place
  return ((⟨opcode, UInt32.ofNat offset, operand⟩, targets), place)

/-! ## Streams -/

/-- What the first loop has read so far. -/
structure Draft where
  instructions : List Instruction
  offsets : List Nat
  /-- The index of each jump with the offsets it goes to. -/
  jumps : List (Nat × List Nat)

/-- Whether an instruction is a jump. A jump table is one even if it is empty. -/
def isJump (kind : OperandKind) (targets : List Nat) : Bool := !targets.isEmpty || kind == .switch

/-- A draft with the instruction at a place, which is kept as a jump too if it is one. -/
def Draft.push (draft : Draft) (instruction : Instruction) (targets : List Nat) (place : Nat) :
    Draft where
  instructions := draft.instructions ++ [instruction]
  offsets := draft.offsets ++ [place]
  jumps :=
    if isJump instruction.opcode.operand targets then
      draft.jumps ++ [(draft.instructions.length, targets)]
    else draft.jumps

/-- The first loop: reads on from a place to the end. -/
def Draft.readFrom (code : Bytes) (place : Nat) (draft : Draft) : Machine Draft := do
  if place < code.length then
    let ((instruction, targets), next) ← readInstruction code place
    draft.push instruction targets place |>.readFrom code next
  else return draft
partial_fixpoint

/-- The index of a target of the jump at an index. -/
def resolveTarget (offsets : List Nat) (jump target : Nat) : Machine Nat :=
  match boundary? offsets target with
  | some place => return place
  | none => do
    let offset ← index offsets jump
    throw (.fault (.malformed (.branchMisses offset target)))

/-- The operand of a jump whose targets are resolved. -/
def jumpOperand (kind : OperandKind) (resolved : List Nat) : Machine Operand :=
  if kind = .switch then return .switch resolved else .target <$> index resolved 0

/-- The second loop: puts the indices of targets into the jumps. -/
def resolveJumps (offsets : List Nat) :
    (jumps : List (Nat × List Nat)) → List Instruction → Machine (List Instruction)
  | [], instructions => return instructions
  | (place, targets) :: jumps, instructions => do
    let resolved ← targets.mapM (resolveTarget offsets place)
    let instruction ← index instructions place
    let operand ← jumpOperand instruction.opcode.operand resolved
    resolveJumps offsets jumps (instructions.set place { instruction with operand })

def decodeStream (code : Bytes) : Machine (List Instruction) := do
  let draft ← Draft.readFrom code 0 ⟨[], [], []⟩
  resolveJumps draft.offsets draft.jumps draft.instructions

def sizeOf (instruction : Instruction) : Machine Nat := do
  let operand ←
    match instruction.operand with
    | .switch indices => do add 4 (← mul Address.limit 4 indices.length)
    | _ => pure instruction.opcode.operand.size
  add instruction.opcode.size operand

/-- The offsets of instructions, the first one at `offset`, and then the end of the last one. -/
def layoutFrom (offset : Nat) : List Instruction → Machine (List Nat)
  | [] => return [offset]
  | instruction :: rest => do
    let next ← add offset (← sizeOf instruction)
    return offset :: (← layoutFrom next rest)

/-- The layout is put into room that is made for it before, for an offset more than instructions. -/
def layoutOf (instructions : List Instruction) : Machine (List Nat) := do
  let _ ← add instructions.length 1
  layoutFrom 0 instructions

/-! ## Instructions are read alike -/

/-- The operand of an instruction whose jumps are not resolved. -/
def bare : ScannedOperand → Operand
  | .immediate operand => operand
  | .jump _ | .jumps _ => .none

/-- An instruction whose jumps are not resolved. -/
def draftOf (scanned : Scanned) : Instruction :=
  ⟨scanned.opcode, UInt32.ofNat scanned.offset, bare scanned.operand⟩

/-- A value with the place behind it, and the same value with the bytes from there on. -/
def Placed {α γ : Type} (code : Bytes) (shape : α → γ) (made : γ × Nat) (taken : α × Bytes) :
    Prop :=
  made.1 = shape taken.1 ∧ made.2 ≤ code.length ∧ taken.2 = code.drop made.2

section

variable {code : Bytes} {offset place : Nat}

/-- An opcode is read at a place as it is taken off the front there. -/
theorem follows_takeOpcode (short : code.length < Address.limit) :
    Follows (Placed code id) (readOpcode code offset) (takeOpcode offset (code.drop offset)) := by
  refine (follows_takeNumber (by decide) short).bind ?_
  rintro _ ⟨first, _⟩ ⟨rfl, inside, rfl⟩ -
  have known {value place : Nat} (inside : place ≤ code.length) :
      Follows (Placed code id)
        (match Opcode.ofValue? (UInt16.ofNat value) with
          | some opcode => Pure.pure (opcode, place)
          | none =>
            throw (.fault (.malformed (.unknownOpcode (UInt16.ofNat value) offset))))
        (match Opcode.ofValue? (UInt16.ofNat value) with
          | some opcode => Pure.pure (opcode, code.drop place)
          | none => throw (.malformed (.unknownOpcode (UInt16.ofNat value) offset))) := by
    cases Opcode.ofValue? (UInt16.ofNat value) with
    | some opcode => exact .pure ⟨rfl, inside, rfl⟩
    | none => exact .throw _
  dsimp only
  by_cases escaped : first = Opcode.escape.toNat
  · rw [if_pos escaped, if_pos escaped]
    refine (follows_takeNumber (by decide) short).bind ?_
    rintro _ ⟨second, _⟩ ⟨rfl, inside, rfl⟩ -
    exact known inside
  · rw [if_neg escaped, if_neg escaped]
    exact known inside

/-- A distance that a word holds. -/
def IsDistance (displacement : Int) : Prop :=
  -0x80000000 ≤ displacement ∧ displacement < 0x80000000

/-- A displacement of a word is a distance. -/
theorem isDistance_displacement32 (bits : Nat) : IsDistance (displacement32 bits) :=
  ⟨(UInt32.ofNat bits).toInt32.le_toInt, (UInt32.ofNat bits).toInt32.toInt_lt⟩

/-- A displacement of a byte is a distance. -/
theorem isDistance_displacement8 (bits : Nat) : IsDistance (displacement8 bits) := by
  have lower := (UInt8.ofNat bits).toInt8.le_toInt
  have upper := (UInt8.ofNat bits).toInt8.toInt_lt
  unfold IsDistance displacement8
  omega

/-- A place in a string that is not too long is the same as a signed word. -/
theorem signed_eq {place : Nat} (small : place < 0x4000000000000000) :
    Address.signed place = place := by
  have below : place < Address.limit / 2 := by
    unfold Address.limit
    omega
  rw [Address.signed, if_pos below]

/-- In code that is short enough a place and a distance have a sum with a sign, so a jump is checked
without an abort. -/
theorem follows_jumpTarget {displacement : Int} (short : code.length < 0x4000000000000000)
    (inside : place ≤ code.length) (distance : IsDistance displacement) :
    Follows (· = ·) (branchTarget code offset place displacement)
      (jumpTarget code.length offset place displacement) := by
  obtain ⟨lower, upper⟩ := distance
  have place_eq := signed_eq (Nat.lt_of_le_of_lt inside short)
  have length_eq := signed_eq short
  have holds : Address.holdsSigned (place + displacement) := by
    unfold Address.holdsSigned Address.limit
    simp only [Bool.and_eq_true, decide_eq_true_eq]
    omega
  rw [branchTarget, place_eq, length_eq, addSigned_of_holds holds, pure_bind, jumpTarget]
  dsimp only
  by_cases leaves : (place : Int) + displacement < 0 ∨ (code.length : Int) ≤ place + displacement
  · rw [if_pos leaves, if_pos leaves]
    exact .throw _
  · rw [if_neg leaves, if_neg leaves]
    refine .pure ?_
    rw [Address.wrap, Int.emod_eq_of_lt (by omega)]
    unfold Address.limit
    omega

/-- The words of a jump table are read one behind the other, and are distances. -/
theorem follows_takeDisplacements (short : code.length < Address.limit) (count : Nat)
    (inside : place ≤ code.length) :
    Follows (fun made taken => made = (taken.1, place + 4 * count) ∧
        place + 4 * count ≤ code.length ∧ taken.2 = code.drop (place + 4 * count) ∧
        ∀ displacement ∈ taken.1, IsDistance displacement)
      (readDisplacements code count place) (takeDisplacements count (code.drop place)) := by
  induction count generalizing place with
  | zero => exact .pure ⟨rfl, inside, rfl, nofun⟩
  | succ count ih =>
    refine (follows_takeNumber (by decide) short).bind ?_
    rintro _ ⟨bits, _⟩ ⟨rfl, inside, rfl⟩ -
    refine (ih inside).bind ?_
    rintro _ ⟨displacements, _⟩ ⟨rfl, inside, rfl, distances⟩ -
    have place_eq : place + 4 + 4 * count = place + 4 * (count + 1) := by omega
    rw [place_eq] at inside ⊢
    exact .pure ⟨rfl, inside, rfl,
      List.forall_mem_cons.mpr ⟨isDistance_displacement32 bits, distances⟩⟩

/-- An operand is read at a place as it is taken off the front there; of a jump the targets are kept
apart. -/
theorem follows_takeOperand {opcode : Opcode} (short : code.length < 0x4000000000000000)
    (place_eq : place = offset + opcode.size) (inside : place ≤ code.length) :
    Follows (Placed code fun scanned => (bare scanned, scanned.targets))
      (readOperand code offset opcode.operand place)
      (takeOperand code.length offset opcode (code.drop place)) := by
  have below : code.length < Address.limit := by
    unfold Address.limit
    omega
  unfold readOperand takeOperand
  dsimp only
  rw [← place_eq]
  cases opcode.operand with
  | none => exact .pure ⟨rfl, inside, rfl⟩
  | shortBranch =>
    refine (follows_takeNumber (by decide) below).bind ?_
    rintro _ ⟨bits, _⟩ ⟨rfl, inside, rfl⟩ -
    refine (follows_jumpTarget short inside (isDistance_displacement8 bits)).bind ?_
    rintro target _ rfl -
    exact .pure ⟨rfl, inside, rfl⟩
  | branch =>
    refine (follows_takeNumber (by decide) below).bind ?_
    rintro _ ⟨bits, _⟩ ⟨rfl, inside, rfl⟩ -
    refine (follows_jumpTarget short inside (isDistance_displacement32 bits)).bind ?_
    rintro target _ rfl -
    exact .pure ⟨rfl, inside, rfl⟩
  | switch =>
    refine (follows_takeNumber (by decide) below).bind ?_
    rintro _ ⟨count, _⟩ ⟨rfl, inside, rfl⟩ -
    dsimp only
    -- the count is checked against what is left, before any displacement is read
    rw [List.length_drop]
    by_cases long : (code.length - (place + 4)) / 4 < count
    · rw [if_pos long, if_pos long]
      exact .throw _
    · rw [if_neg long, if_neg long]
      refine (follows_takeDisplacements below count inside).bind ?_
      rintro _ ⟨displacements, _⟩ ⟨rfl, inside, rfl, distances⟩ -
      have targets := Follows.mapM fun displacement mem =>
        @follows_jumpTarget code offset _ _ short inside (distances displacement mem)
      refine targets.bind ?_
      rintro targets _ rfl -
      exact .pure ⟨rfl, inside, rfl⟩
  -- the plain numbers of one, two, four and eight bytes differ in nothing but their width
  | _ =>
    refine (follows_takeNumber (by decide) below).bind ?_
    rintro _ ⟨bits, _⟩ ⟨rfl, inside, rfl⟩ -
    exact .pure ⟨rfl, inside, rfl⟩

/-- A place is told by what stands in front of it. -/
theorem place_eq_of_drop {front : Bytes} (there : code.drop offset = front ++ code.drop place)
    (inside : offset ≤ code.length) (inside' : place ≤ code.length) :
    place = offset + front.length := by
  have length_eq := congrArg List.length there
  rw [List.length_append, List.length_drop, List.length_drop] at length_eq
  omega

/-- A machine reads the instruction that is taken there, and is behind it then. -/
theorem follows_takeInstruction (short : code.length < 0x4000000000000000)
    (inside : offset ≤ code.length) :
    Follows (fun made taken => made = ((draftOf taken.1, taken.1.operand.targets),
          offset + taken.1.size) ∧ offset + taken.1.size ≤ code.length ∧
        taken.2 = code.drop (offset + taken.1.size))
      (readInstruction code offset) (takeInstruction code.length offset (code.drop offset)) := by
  have below : code.length < Address.limit := by
    unfold Address.limit
    omega
  refine (follows_takeOpcode below).bind ?_
  rintro ⟨opcode, place⟩ ⟨_, rest⟩ ⟨rfl, inside', rest_eq⟩ taken
  dsimp only [id] at inside' rest_eq ⊢
  subst rest_eq
  have front := (takeOpcode_eq_ok_iff.mp taken).2
  have place_eq := place_eq_of_drop front inside inside'
  rw [Opcode.length_encode] at place_eq
  refine (follows_takeOperand short place_eq inside').bind ?_
  rintro ⟨_, last⟩ ⟨operand, rest⟩ ⟨rfl, inside'', rest_eq⟩ taken
  dsimp only at inside'' rest_eq ⊢
  subst rest_eq
  obtain ⟨written, spells, -, front⟩ := takeOperand_eq_ok_iff.mp taken
  have last_eq := place_eq_of_drop front inside' inside''
  have size_eq : Scanned.size ⟨opcode, offset, operand⟩ = opcode.size + written.length :=
    Scanned.size_eq spells
  rw [place_eq, Nat.add_assoc, ← size_eq] at last_eq
  subst last_eq
  exact .pure ⟨rfl, inside'', rfl⟩

end

/-! ## Streams are read alike -/

/-- The jumps of instructions, the first of which is at an index. -/
def jumpsFrom : (place : Nat) → List Scanned → List (Nat × List Nat)
  | _, [] => []
  | place, scanned :: rest =>
    if isJump scanned.opcode.operand scanned.operand.targets then
      (place, scanned.operand.targets) :: jumpsFrom (place + 1) rest
    else jumpsFrom (place + 1) rest

/-- A draft with further instructions. -/
def Draft.append (draft : Draft) (scanned : List Scanned) : Draft where
  instructions := draft.instructions ++ scanned.map draftOf
  offsets := draft.offsets ++ scanned.map Scanned.offset
  jumps := draft.jumps ++ jumpsFrom draft.instructions.length scanned

/-- A draft with nothing behind it. -/
theorem Draft.append_nil (draft : Draft) : draft.append [] = draft := by
  simp [append, jumpsFrom]

/-- Instructions are appended one at a time or together. -/
theorem Draft.append_cons (draft : Draft) (one : Scanned) (rest : List Scanned) :
    (draft.append [one]).append rest = draft.append (one :: rest) := by
  simp only [append, jumpsFrom, List.map_cons, List.map_nil, List.append_assoc,
    List.singleton_append, List.length_append, List.length_singleton, Draft.mk.injEq, true_and]
  split <;> rfl

/-- The first loop ends with the instructions of a scan, for which there is fuel enough. -/
theorem follows_scanFrom {code : Bytes} (short : code.length < 0x4000000000000000) (fuel : Nat)
    {place : Nat} (inside : place ≤ code.length) (enough : code.length ≤ place + fuel)
    (draft : Draft) :
    Follows (fun made scanned => made = draft.append scanned) (draft.readFrom code place)
      (scanFrom code.length fuel place (code.drop place)) := by
  induction fuel generalizing place draft with
  | zero =>
    rw [Draft.readFrom, if_neg (by omega), List.drop_of_length_le (by omega)]
    exact .pure draft.append_nil.symm
  | succ fuel ih =>
    rw [Draft.readFrom]
    by_cases more : place < code.length
    · have some_left : code.drop place ≠ [] := by
        rw [ne_eq, List.drop_eq_nil_iff]
        omega
      rw [if_pos more, scanFrom]
      case x_3 => exact some_left
      refine (follows_takeInstruction short inside).bind ?_
      rintro _ ⟨scanned, rest⟩ ⟨rfl, inside', rest_eq⟩ taken
      dsimp only at inside' rest_eq ⊢
      subst rest_eq
      have place_eq : scanned.offset = place := (takeInstruction_eq_ok_iff.mp taken).1
      have positive := scanned.opcode.size_pos
      have size_ge : scanned.opcode.size ≤ scanned.size := Nat.le_add_right _ _
      have draft_eq : draft.push (draftOf scanned) scanned.operand.targets place =
          draft.append [scanned] := by
        simp only [Draft.push, Draft.append, jumpsFrom, List.map_cons, List.map_nil, place_eq,
          draftOf]
        split <;> simp
      rw [draft_eq, ← bind_pure (Draft.readFrom _ _ _)]
      refine (ih inside' (by omega) _).bind ?_
      rintro _ others rfl -
      exact .pure (draft.append_cons scanned others)
    · rw [if_neg more, List.drop_of_length_le (by omega), scanFrom]
      exact .pure draft.append_nil.symm

/-- A jump table stands exactly where the opcode asks for one. -/
def Formed (scanned : Scanned) : Prop :=
  (∃ targets, scanned.operand = .jumps targets) ↔ scanned.opcode.operand = .switch

/-- What spells an operand is a jump table just for a switch. -/
theorem formed_of_spells {scanned : Scanned} {next : Nat} {written : Bytes}
    (spells : scanned.operand.Spells next scanned.opcode.operand written) : Formed scanned := by
  obtain ⟨⟨value, name, kind⟩, offset, operand⟩ := scanned
  dsimp only [Formed] at spells ⊢
  cases spells with
  | @immediate _ operand _ spelled =>
    constructor
    · rintro ⟨_, ⟨⟩⟩
    · rintro rfl
      cases operand <;> cases spelled
  | shortBranch | branch => simp
  | switch targets => simp

/-- In a spelled stream every instruction is formed. -/
theorem formed_of_spelled {offset : Nat} {scanned : List Scanned} {bytes : Bytes}
    (spelled : Spelled offset scanned bytes) : ∀ one ∈ scanned, Formed one := by
  induction spelled with
  | nil => nofun
  | cons spells _ ih => exact List.forall_mem_cons.mpr ⟨formed_of_spells spells, ih⟩

/-- The target of a jump is found alike, and is missed with the offset of the jump. -/
theorem follows_boundary {offsets : List Nat} {jump offset : Nat}
    (there : offsets[jump]? = some offset) (target : Nat) :
    Follows (· = ·) (resolveTarget offsets jump target) (boundary offsets offset target) := by
  rw [resolveTarget, boundary]
  cases boundary? offsets target with
  | some place => exact .pure rfl
  | none =>
    rw [index_of_getElem? there, pure_bind]
    exact .throw _

/-- The operand of a jump is resolved alike. -/
theorem follows_jumpOperand {offsets : List Nat} {place : Nat} {one : Scanned} (form : Formed one)
    (there : offsets[place]? = some one.offset)
    (jumps : isJump one.opcode.operand one.operand.targets) :
    Follows (· = ·)
      (one.operand.targets.mapM (resolveTarget offsets place) >>= jumpOperand one.opcode.operand)
      (one.operand.resolve offsets one.offset) := by
  obtain ⟨⟨value, name, kind⟩, offset, operand⟩ := one
  dsimp only [Formed] at form there jumps ⊢
  cases operand with
  | immediate operand =>
    have table : kind = .switch := by simpa [isJump, ScannedOperand.targets] using jumps
    obtain ⟨_, ⟨⟩⟩ := form.mpr table
  | jump target =>
    have no_table : kind ≠ .switch := by
      intro table
      obtain ⟨_, ⟨⟩⟩ := form.mpr table
    simp only [ScannedOperand.targets, List.mapM_cons, List.mapM_nil, bind_assoc, pure_bind,
      ScannedOperand.resolve, map_eq_pure_bind]
    refine (follows_boundary there target).bind ?_
    rintro index _ rfl -
    rw [jumpOperand, if_neg no_table]
    exact .pure rfl
  | jumps targets =>
    have table : kind = .switch := form.mp ⟨targets, rfl⟩
    simp only [ScannedOperand.targets, ScannedOperand.resolve, map_eq_pure_bind]
    refine (Follows.mapM fun target _ => follows_boundary there target).bind ?_
    rintro indices _ rfl -
    rw [jumpOperand, if_pos table]
    exact .pure rfl

/-- An instruction that is no jump is complete after the first loop. -/
theorem resolve_of_plain {offsets : List Nat} {one : Scanned} (form : Formed one)
    (plain : isJump one.opcode.operand one.operand.targets = false) :
    one.resolve offsets = .ok (draftOf one) := by
  obtain ⟨⟨value, name, kind⟩, offset, operand⟩ := one
  dsimp only [Formed] at form plain ⊢
  cases operand with
  | immediate operand => rfl
  | jump target => cases plain
  | jumps targets =>
    have table : kind = .switch := form.mp ⟨targets, rfl⟩
    simp [isJump, table] at plain

/-- The second loop resolves the instructions that the first one left, one after another. -/
theorem follows_resolve {offsets : List Nat} {front : List Instruction} {scanned : List Scanned}
    (placed : offsets.drop front.length = scanned.map Scanned.offset)
    (formed : ∀ one ∈ scanned, Formed one) :
    Follows (fun made resolved => made = front ++ resolved)
      (resolveJumps offsets (jumpsFrom front.length scanned) (front ++ scanned.map draftOf))
      (scanned.mapM (Scanned.resolve offsets)) := by
  induction scanned generalizing front with
  | nil => exact .pure rfl
  | cons one rest ih =>
    obtain ⟨form, formed⟩ := List.forall_mem_cons.mp formed
    have there : offsets[front.length]? = some one.offset := by
      have head := congrArg List.head? placed
      rwa [List.head?_drop] at head
    -- What is done once the first instruction is complete.
    have on (instruction : Instruction) :
        Follows (fun made resolved => made = front ++ resolved)
          (resolveJumps offsets (jumpsFrom (front.length + 1) rest)
            (front ++ instruction :: rest.map draftOf))
          (do
            let others ← rest.mapM (Scanned.resolve offsets)
            return instruction :: others) := by
      have placed' : offsets.drop (front ++ [instruction]).length = rest.map Scanned.offset := by
        rw [List.length_append, List.length_singleton, ← List.drop_drop, placed]
        rfl
      have others := ih placed' formed
      simp only [List.length_append, List.length_singleton, List.append_assoc,
        List.singleton_append] at others
      rw [← bind_pure (resolveJumps _ _ _)]
      refine others.bind ?_
      rintro _ resolved rfl -
      exact .pure rfl
    rw [List.mapM_cons, List.map_cons, jumpsFrom]
    cases jumps : isJump one.opcode.operand one.operand.targets with
    | false =>
      rw [if_neg (by decide), resolve_of_plain form jumps]
      exact on _
    | true =>
      have found : index (front ++ draftOf one :: rest.map draftOf) front.length =
          Pure.pure (draftOf one) := by
        refine index_of_getElem? ?_
        rw [List.getElem?_append_right (Nat.le_refl _), Nat.sub_self]
        rfl
      rw [if_pos rfl, resolveJumps, Scanned.resolve]
      simp only [found, pure_bind, bind_assoc]
      rw [← bind_assoc]
      refine (follows_jumpOperand form there jumps).bind ?_
      rintro operand _ rfl -
      rw [List.set_append_right _ _ (Nat.le_refl _), Nat.sub_self, List.set_cons_zero]
      exact on _

/-- A machine decodes a stream as the stream is decoded. -/
theorem decodeStream_eq {code : Bytes} (short : code.length < 0x4000000000000000) :
    decodeStream code = done (decode code) := by
  refine follows_eq_iff.mp ?_
  refine (follows_scanFrom short code.length (Nat.zero_le _) (by omega) _).bind ?_
  rintro _ scanned rfl scan
  obtain ⟨spelled, -⟩ := scan_eq_ok_iff.mp scan
  rw [← bind_pure (resolveJumps _ _ _), ← bind_pure (scanned.mapM _)]
  have resolved := @follows_resolve (scanned.map Scanned.offset) [] scanned rfl
    (formed_of_spelled spelled)
  refine resolved.bind ?_
  rintro _ instructions rfl -
  exact .pure rfl

/-! ## Layouts -/

/-- The size of an instruction that is short enough is computed without an abort. -/
theorem sizeOf_eq {instruction : Instruction} (small : instruction.size < Address.limit) :
    sizeOf instruction = pure instruction.size := by
  obtain ⟨opcode, offset, operand⟩ := instruction
  unfold sizeOf
  unfold Instruction.size at small ⊢
  dsimp only at small ⊢
  cases operand with
  | switch indices =>
    dsimp only at small ⊢
    rw [mul_of_lt (by omega), pure_bind, add_of_lt (by omega), pure_bind, add_of_lt (by omega)]
  | _ => rw [pure_bind, add_of_lt small]

/-- The layout of code that is short enough is computed without an abort: every offset is below the
end. -/
theorem layoutFrom_eq {offset : Nat} {instructions : List Instruction}
    (small : offset + codeSize instructions < Address.limit) :
    layoutFrom offset instructions =
      pure (startsFrom offset instructions ++ [offset + codeSize instructions]) := by
  induction instructions generalizing offset with
  | nil => rfl
  | cons instruction rest ih =>
    rw [codeSize] at small
    rw [layoutFrom, sizeOf_eq (by omega), pure_bind, add_of_lt (by omega), pure_bind,
      ih (by omega), pure_bind, startsFrom, codeSize, Nat.add_assoc, List.cons_append]

/-- Every instruction takes a byte at least, so there are no more of them than bytes. -/
theorem length_le_codeSize (instructions : List Instruction) :
    instructions.length ≤ codeSize instructions := by
  induction instructions with
  | nil => exact Nat.le_refl 0
  | cons instruction rest ih =>
    have positive := instruction.size_pos
    rw [List.length_cons, codeSize]
    omega

/-- The room for the layout is one more than the instructions, which is no more than the code and
one. -/
theorem layoutOf_eq {instructions : List Instruction}
    (small : codeSize instructions + 1 < Address.limit) :
    layoutOf instructions = pure (layout instructions) := by
  have few := length_le_codeSize instructions
  rw [layoutOf, add_of_lt (by omega), pure_bind, layoutFrom_eq (by omega), Nat.zero_add, layout,
    starts]

end CilCapture.Machine
