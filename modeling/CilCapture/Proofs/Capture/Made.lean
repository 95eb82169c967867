import CilCapture.Proofs.Body.Tokens
import CilCapture.Proofs.Capture.Steps

/-!
# What a gathered body is made of

Whatever answers it gets on the way, a response comes to values of a kind if each of its ends is of
that kind: `Response.Only`. So what is gathered for a request is made of what the request says
(`gives_gather`): its code with tokens resolved, its maximum stack and its options.

`Only` is a statement about every way in which a response can end, so it holds whatever world, depth
or result it is given on its way. That makes it weaker than running the response and simpler to
compose, which is what it is for: `Only.run` gives it back for any particular run.
-/

namespace CilCapture

open Compile

/-! ## The ends of a response -/

namespace Compile.Response

variable {C J W α β : Type} {P : α → Prop} {Q : β → Prop}

/-- A response all of whose ends are values of a kind. -/
def Only (P : α → Prop) : Response C W α → Prop
  | .finish value => P value
  | .observe next => ∀ client world, (next client world).Only P
  | .countDepth next => ∀ depth, (next depth).Only P
  | .store _ _ next => next.Only P
  | .report _ next => next.Only P
  | .arm _ next => next.Only P
  | .compile _ next => ∀ result, (next result).Only P
  | .sift _ next => ∀ outcome, (next outcome).Only P

/-- The ends of a sequence are the ends of what follows the first response. -/
theorem Only.andThen {response : Response C W α} {next : α → Response C W β}
    (first : response.Only P) (second : ∀ value, P value → (next value).Only Q) :
    (response.andThen next).Only Q := by
  induction response with
  | finish value => exact second value first
  | observe rest ih => exact fun client world => ih client world (first client world)
  | countDepth rest ih => exact fun depth => ih depth (first depth)
  | store client world rest ih => exact ih first
  | report notice rest ih => exact ih first
  | arm method rest ih => exact ih first
  | compile call rest ih => exact fun result => ih result (first result)
  | sift event rest ih => exact fun outcome => ih outcome (first outcome)

/-- Every response ends somehow. -/
theorem only_true (response : Response C W α) : response.Only fun _ => True := by
  induction response with
  | finish value => trivial
  | observe rest ih => exact fun client world => ih client world
  | countDepth rest ih => exact fun depth => ih depth
  | store client world rest ih => exact ih
  | report notice rest ih => exact ih
  | arm method rest ih => exact ih
  | compile call rest ih => exact fun result => ih result
  | sift event rest ih => exact fun outcome => ih outcome

/-- What stands beside the state has no part in the ends. -/
theorem Only.beside {response : Response C W α} (only : response.Only P) :
    (response.beside (J := J)).Only P := by
  induction response with
  | finish value => exact only
  | observe rest ih => exact fun client world => ih client.1 world (only client.1 world)
  | countDepth rest ih => exact fun depth => ih depth (only depth)
  | store client world rest ih => exact fun _ _ => ih only
  | report notice rest ih => exact ih only
  | arm method rest ih => exact ih only
  | compile call rest ih => exact fun result => ih result (only result)
  | sift event rest ih => exact fun outcome => ih outcome (only outcome)

/-- Whatever a response comes to in a run is one of its ends. -/
theorem Only.run {enter : CompileCall → Process C W → Int32 × Process C W}
    {sift : CompileEvent → Process C W → FilterOutcome × Process C W} {response : Response C W α}
    (only : response.Only P) {process : Process C W} {value : α}
    (ended : (response.run enter sift process).1 = some value) : P value := by
  induction response generalizing process with
  | finish last =>
    cases ended
    exact only
  | observe rest ih => exact ih _ _ (only _ _) ended
  | countDepth rest ih => exact ih _ (only _) ended
  | store client world rest ih => exact ih only ended
  | report notice rest ih => exact ih only ended
  | arm method rest ih => exact ih only ended
  | compile call rest ih => exact ih _ (only _) ended
  | sift event rest ih =>
    rw [Response.run] at ended
    split at ended
    next => cases ended
    next => exact ih _ (only _) ended

end Compile.Response

namespace Capture

open Body Engine

variable {M W α β : Type} {P : α → Prop} {Q : β → Prop}

/-! ## The values of a step -/

/-- A step that comes to values of a kind, if it does not fail. -/
def Gives (P : α → Prop) (step : CaptureStep M W α) : Prop :=
  step.run.Only fun result => ∀ value, result = .ok value → P value

/-- A step that gives a value of the kind at once. -/
theorem gives_pure {value : α} (here : P value) : Gives P (pure value : CaptureStep M W α) := by
  rintro _ ⟨⟩
  exact here

/-- A step that fails gives nothing. -/
theorem gives_throw (abort : Abort) : Gives P (throw abort : CaptureStep M W α) :=
  fun _ never => nomatch never

/-- Every step gives something. -/
theorem gives_true (step : CaptureStep M W α) : Gives (fun _ => True) step := by
  have ends := Response.Only.andThen (Response.only_true step.run)
    (fun result _ => show (Response.finish result : Response Recorder (Workspace M W) _).Only
      (fun result => ∀ value, result = .ok value → True) from fun _ _ => trivial)
  rwa [andThen_finish] at ends

/-- What a sequence gives, it gives by its second step from what the first one gave. -/
theorem Gives.bind {step : CaptureStep M W α} {next : α → CaptureStep M W β}
    (first : Gives P step) (second : ∀ value, P value → Gives Q (next value)) :
    Gives Q (step >>= next) := by
  refine Response.Only.andThen first fun result here => ?_
  cases result with
  | ok value => exact second value (here value rfl)
  | error abort => exact fun _ never => nomatch never

/-! ## Gathered bodies -/

/-- A body that was assembled from parts, whatever the resolver answered. -/
structure MadeFrom (parts : Parts) (body : MethodBody) : Prop where
  maxStack_eq : body.maxStack.toUInt32 = parts.maxStack
  initLocals_eq : body.initLocals = parts.initLocals
  localSignature_eq : body.localSignature = (keepLocals parts.locals).1
  code : ∃ instructions tokens, Il.decode parts.code = .ok instructions ∧
    Retokened instructions tokens body.instructions
  regions : parts.clauses.mapM (fun clause =>
    Region.ofClause clause (Il.layout body.instructions)) = .ok body.regions

/-- A settled result gives its value. -/
theorem gives_liftFault (result : Except Fault α) :
    Gives (fun value => result = .ok value) (liftFault result : CaptureStep M W α) := by
  cases result with
  | ok value => exact gives_pure rfl
  | error fault => exact gives_throw _

/-- Resolving tokens gives a stream that differs in the tokens of its sites only, whatever the
resolver does in between. -/
theorem gives_resolveInstructions (resolve : TokenResolver (ExceptT Abort
    (Response Recorder (Workspace M W)))) (instructions : List Il.Instruction) :
    Gives (fun resolved => ∃ tokens, Retokened instructions tokens resolved)
      (resolveInstructions resolve instructions : CaptureStep M W _) := by
  induction instructions with
  | nil => exact gives_pure ⟨[], .nil⟩
  | cons instruction rest ih =>
    rw [resolveInstructions]
    cases site : askedToken? instruction with
    | none =>
      rw [resolveInstruction_of_plain resolve site]
      refine Gives.bind (gives_pure (P := fun one => one = instruction) rfl) ?_
      rintro _ rfl
      refine ih.bind fun resolved retokened => ?_
      obtain ⟨tokens, retokened⟩ := retokened
      exact gives_pure ⟨tokens, .kept site retokened⟩
    | some token =>
      rw [resolveInstruction_of_askedToken? resolve site]
      have answered := (gives_true (resolve instruction.opcode token)).bind fun new _ =>
        gives_pure (M := M) (W := W) (P := fun one => ∃ new, one =
          ({ instruction with operand := .token new } : Il.Instruction)) ⟨new, rfl⟩
      refine answered.bind ?_
      rintro _ ⟨new, rfl⟩
      refine ih.bind fun resolved retokened => ?_
      obtain ⟨tokens, retokened⟩ := retokened
      exact gives_pure ⟨new :: tokens, .asked new site retokened⟩

/-- Whatever the resolver does in between, the assembler gives a body made from the parts it was
given. -/
theorem gives_assemble (resolve : TokenResolver (ExceptT Abort
    (Response Recorder (Workspace M W)))) (parts : Parts) :
    Gives (fun done => MadeFrom parts done.1) (assemble resolve parts : CaptureStep M W _) := by
  unfold assemble
  by_cases deep : 0xFFFF < parts.maxStack
  · rw [if_pos deep]
    exact (gives_throw (P := fun _ => False) _).bind fun _ never => never.elim
  · rw [if_neg deep]
    have fits : parts.maxStack.toUInt16.toUInt32 = parts.maxStack := by
      have := UInt32.le_iff_toNat_le.mp (UInt32.not_lt.mp deep)
      rw [← UInt32.toNat_inj, UInt16.toNat_toUInt32, UInt32.toNat_toUInt16]
      exact Nat.mod_eq_of_lt (Nat.lt_succ_of_le this)
    refine (gives_liftFault _).bind fun instructions decoded => ?_
    refine (gives_resolveInstructions resolve instructions).bind fun resolved retokened => ?_
    obtain ⟨tokens, retokened⟩ := retokened
    refine (gives_liftFault _).bind fun regions mapped => ?_
    exact gives_pure ⟨fits, rfl, rfl, ⟨instructions, tokens, decoded, retokened⟩, mapped⟩

variable [NativeCode W] [CodeSpace W]

/-- What a request is gathered to. -/
def GatheredFrom (event : CompileEvent) (gathered : CompileRequest × MethodBody) : Prop :=
  event.request? = some gathered.1 ∧ ∃ locals clauses, MadeFrom {
    code := gathered.1.code
    maxStack := gathered.1.maxStack
    initLocals := gathered.1.initLocals
    locals
    clauses } gathered.2

/-- What is gathered is made from the request of the event. -/
theorem gives_gather (rules : CaptureRules M W) (row : Nat) (event : CompileEvent) :
    Gives (GatheredFrom event) (gather rules row event) := by
  unfold gather
  refine (gives_true _).bind fun _ _ => ?_
  cases asked : event.request? with
  | none => exact gives_throw _
  | some request =>
    refine (gives_true _).bind fun locals _ => ?_
    refine (gives_true _).bind fun clauses _ => ?_
    refine (gives_assemble _ _).bind fun assembled made => ?_
    refine (gives_true _).bind fun _ _ => ?_
    exact gives_pure ⟨asked, locals, clauses, made⟩

end Capture

end CilCapture
