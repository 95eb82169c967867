import CilCapture.Capture.Recorder
import CilCapture.Proofs.Compile.Journal
import CilCapture.Proofs.Signature.Locals
import CilCapture.Rehearsal.World

/-!
# Captured locals are not lost

The recorder writes a local signature of the types that it read, and the assembler leaves out a
signature that does not parse. What was written always parses (`splitLocals_of_readLocals`), and a
signature that parses is put into the body and changes nothing else (`assemble_locals`). So a
capture that could read the locals stages a body with exactly these
(`localSignature_of_captureBody`).

The blob goes through three hands: it is read from a pointer of the request, it is checked by the
assembler, and it is stored in the body. `Kept` says of a blob that the assembler leaves it as it
is, whatever the other parts are.

The theorem is stated for reading from any source, hence for a cursor and for native memory alike.
What is read stops where the types do, so the bytes behind them do not matter
(`capturedLocals_kept`). The converse part says that types that can be taken apart can also be read,
and give the same signature again.
-/

namespace CilCapture.Capture

open Body Compile Engine Signature

/-! ## Assembling with and without locals -/

/-- Locals have a say in the local signature and the notices of an assembly alone. -/
theorem assemble_locals {m : Type → Type} [Monad m] [LawfulMonad m] [MonadExceptOf Abort m]
    (resolve : TokenResolver m) (parts : Parts) :
    assemble resolve parts =
      (fun done => ({ done.1 with localSignature := (keepLocals parts.locals).1 },
        (keepLocals parts.locals).2)) <$> assemble resolve { parts with locals := none } := by
  unfold assemble
  rcases keepLocals parts.locals with ⟨localSignature, notices⟩
  by_cases deep : 0xFFFF < parts.maxStack
  · simp only [if_pos deep, map_bind, map_pure]
  · simp only [if_neg deep, map_bind, map_pure]

/-- Locals that can be taken apart are kept, with nothing to notice. -/
theorem keepLocals_of_splitLocals {blob : Bytes} {slices : List Bytes}
    (apart : splitLocals blob = .ok slices) : keepLocals (some blob) = (some blob, []) := by
  rw [keepLocals, apart]

/-- A signature that the assembler puts into the body as it is, whatever the other parts are. -/
def Kept (blob : Bytes) : Prop :=
  ∀ (m : Type → Type) [Monad m] [LawfulMonad m] [MonadExceptOf Abort m]
    (resolve : TokenResolver m) (parts : Parts),
    assemble resolve { parts with locals := some blob } =
      (fun done => ({ done.1 with localSignature := some blob }, [])) <$>
        assemble resolve { parts with locals := none }

/-- The assembler keeps them in every body, whatever else it is made of. -/
theorem kept_of_splitLocals {blob : Bytes} {slices : List Bytes}
    (apart : splitLocals blob = .ok slices) : Kept blob := by
  intro m _ _ _ resolve parts
  rw [assemble_locals, keepLocals_of_splitLocals apart]

/-! ## Captures that come to an end -/

section

variable {M W α β : Type} {enter : CompileCall → Process Recorder (Workspace M W) →
  Int32 × Process Recorder (Workspace M W)}
variable {sift : CompileEvent → Process Recorder (Workspace M W) →
  FilterOutcome × Process Recorder (Workspace M W)}

/-- A step of a capture that comes to a value. -/
def Succeeds (enter : CompileCall → Process Recorder (Workspace M W) →
      Int32 × Process Recorder (Workspace M W))
    (sift : CompileEvent → Process Recorder (Workspace M W) →
      FilterOutcome × Process Recorder (Workspace M W))
    (step : CaptureStep M W α) (process : Process Recorder (Workspace M W)) (value : α)
    (final : Process Recorder (Workspace M W)) : Prop :=
  step.run.run enter sift process = (some (.ok value), final)

/-- A sequence of steps in a capture succeeds just when both do, one behind the other. -/
theorem succeeds_bind_iff {step : CaptureStep M W α} {next : α → CaptureStep M W β}
    {process final : Process Recorder (Workspace M W)} {result : β} :
    Succeeds enter sift (step >>= next) process result final ↔ ∃ value middle,
      Succeeds enter sift step process value middle ∧
      Succeeds enter sift (next value) middle result final := by
  have run_eq : (step >>= next).run = step.run.andThen (ExceptT.bindCont next) := rfl
  unfold Succeeds
  rw [run_eq, run_andThen]
  rcases step.run.run enter sift process with ⟨_ | abort | value, middle⟩
  · simp
  · constructor
    · rintro ⟨⟩
    · rintro ⟨value, middle, ⟨⟩, -⟩
  · constructor
    · exact fun done => ⟨value, middle, rfl, done⟩
    · rintro ⟨value, middle, ⟨⟩, done⟩
      exact done

/-- A step whose value is changed afterwards succeeds just when it did before. -/
theorem succeeds_map_iff {step : CaptureStep M W α} {change : α → β}
    {process final : Process Recorder (Workspace M W)} {result : β} :
    Succeeds enter sift (change <$> step) process result final ↔
      ∃ value, Succeeds enter sift step process value final ∧ change value = result := by
  rw [map_eq_pure_bind, succeeds_bind_iff]
  constructor
  · rintro ⟨value, middle, done, ⟨⟩⟩
    exact ⟨value, done, rfl⟩
  · rintro ⟨value, done, rfl⟩
    exact ⟨value, final, done, rfl⟩

/-- A capture takes the locals that the reader finds at the pointer of the request. -/
theorem captureLocals_of_readLocals {row : Nat} {request : CompileRequest} {blob : Bytes}
    {last : RawSource} (present : request.localsCount ≠ 0)
    (read : readLocals request.localsCount.toNat
      (RawSource.ofPointer request.locals RawSource.defaultLimit) = .ok blob last) :
    (captureLocals row request : CaptureStep M W (Option Bytes)) = pure (some blob) := by
  unfold captureLocals
  rw [if_neg present]
  dsimp only
  rw [read]

variable [NativeCode W] [CodeSpace W]

/-- The body that a capture stages has the locals of the request, if they can be read. -/
theorem localSignature_of_captureBody {rules : CaptureRules M W} {row : Nat} {event : CompileEvent}
    {process final : Process Recorder (Workspace M W)}
    (done : Succeeds enter sift (captureBody rules row event) process () final) :
    ∃ request body, event.request? = some request ∧ final.client.staged = some ⟨row, body⟩ ∧
      ∀ blob last, request.localsCount ≠ 0 →
        readLocals request.localsCount.toNat
          (RawSource.ofPointer request.locals RawSource.defaultLimit) = .ok blob last →
        body.localSignature = some blob := by
  obtain ⟨-, dumping, -, done⟩ := succeeds_bind_iff.mp done
  cases asked : event.request? with
  | none =>
    rw [asked] at done
    cases done
  | some request =>
    rw [asked] at done
    obtain ⟨locals, looked, locals_eq, done⟩ := succeeds_bind_iff.mp done
    obtain ⟨clauses, told, -, done⟩ := succeeds_bind_iff.mp done
    obtain ⟨⟨body, notices⟩, assembled, assembled_eq, done⟩ := succeeds_bind_iff.mp done
    obtain ⟨-, reported, -, done⟩ := succeeds_bind_iff.mp done
    obtain ⟨⟨recorder, workspace⟩, same, looked_eq, done⟩ := succeeds_bind_iff.mp done
    refine ⟨request, body, rfl, ?_, ?_⟩
    · split at done
      next => cases done
      next =>
        cases done
        rfl
    · intro blob last present read
      rw [captureLocals_of_readLocals present read] at locals_eq
      cases locals_eq
      obtain ⟨slices, apart, -⟩ := splitLocals_of_readLocals read
      rw [assemble_locals, succeeds_map_iff] at assembled_eq
      obtain ⟨done, -, same_body⟩ := assembled_eq
      rw [← (Prod.mk.inj same_body).1, keepLocals_of_splitLocals apart]

/-- Whatever local signature is read from a source, it is taken apart into what each walk passed
over, and the assembler keeps it, so that a capture stages it. Taken apart are exactly the
signatures of as many types as they say, one after another, with nothing behind them. The types of
such a signature, read again, make one that is taken apart into the same types: the same signature,
if its count was in shortest form. -/
theorem capturedLocals_kept :
    (∀ (ρ : Type) [ByteSource ρ] (count : Nat) (source last : ρ) (blob : Bytes),
      readLocals count source = .ok blob last →
        (∃ slices, splitLocals blob = .ok slices ∧ slices.length = count ∧
          WalksEach source slices last ∧ Passes source slices.flatten last) ∧ Kept blob) ∧
    (∀ (rules : CaptureRules M W) (row : Nat) (event : CompileEvent) enter sift process final,
      Succeeds enter sift (captureBody rules row event) process () final →
        ∃ request body, event.request? = some request ∧ final.client.staged = some ⟨row, body⟩ ∧
          ∀ blob last, request.localsCount ≠ 0 →
            readLocals request.localsCount.toNat
              (RawSource.ofPointer request.locals RawSource.defaultLimit) = .ok blob last →
            body.localSignature = some blob) ∧
    (∀ (blob : Bytes) (slices : List Bytes), splitLocals blob = .ok slices ↔
      ∃ spelled, Spells slices.length spelled ∧
        (∀ slice ∈ slices, ∃ depth ≤ 64, TypeEncoding slice depth) ∧
        blob = 0x07 :: (spelled ++ slices.flatten)) ∧
    (∀ (blob : Bytes) (slices : List Bytes), splitLocals blob = .ok slices →
      ∀ (ρ : Type) [ByteSource ρ] (source last : ρ), Passes source slices.flatten last →
        ∃ again, readLocals slices.length source = .ok again last ∧
          splitLocals again = .ok slices ∧
          ∀ spelled, IsShortest slices.length spelled →
            blob = 0x07 :: (spelled ++ slices.flatten) → again = blob) := by
  refine ⟨?_, ?_, ?_, ?_⟩
  · intro ρ _ count source last blob read
    obtain ⟨slices, apart, each⟩ := splitLocals_of_readLocals read
    exact ⟨⟨slices, apart, each⟩, kept_of_splitLocals apart⟩
  · intro rules row event enter sift process final done
    exact localSignature_of_captureBody done
  · intro blob slices
    simp only [← typeWithin_iff]
    exact splitLocals_eq_ok_iff
  · intro blob slices apart ρ _ source last passes
    exact readLocals_of_splitLocals apart passes

end

/-! ## A pointer among the locals -/

/-- Memory that starts with the types of an integer and of a pointer to a string. -/
def pointerLocals : Bytes := [0x08, 0x0F, 0x0E, 0x99]

/-- A call that has a method with two locals compiled whose code only returns. -/
def pointerEvent : CompileEvent where
  layout := .v40
  jitInfo := 0x70
  info := some {
    methodHandle := 0x30
    moduleHandle := 0x10
    code := some [0x2A]
    codeSize := 1
    maxStack := 8
    clauseCount := 0
    options := 0x10
    localsCount := 2
    locals := some pointerLocals }
  nativeEntry := 0
  nativeSize := 0

/-- Two locals behind a pointer, the second one a pointer type: they are read, kept in a staged body
and taken apart again, and the byte behind them is not touched. -/
theorem capturedLocals_kept_pointer :
    ∃ last, readLocals 2 (RawSource.ofPointer (some pointerLocals) RawSource.defaultLimit) =
        .ok [0x07, 0x02, 0x08, 0x0F, 0x0E] last ∧ last.rest = some [0x99] ∧
      splitLocals [0x07, 0x02, 0x08, 0x0F, 0x0E] = .ok [[0x08], [0x0F, 0x0E]] ∧
      Kept [0x07, 0x02, 0x08, 0x0F, 0x0E] ∧
      (∃ (final : Process Recorder (Workspace Unit Rehearsal.World)) (body : MethodBody),
        final.client.staged = some ⟨3, body⟩ ∧
        body.localSignature = some [0x07, 0x02, 0x08, 0x0F, 0x0E]) ∧
      -- The count in a longer form changes nothing but itself, and is gone when the types are read.
      splitLocals [0x07, 0x80, 0x02, 0x08, 0x0F, 0x0E] = .ok [[0x08], [0x0F, 0x0E]] ∧
      ∃ last, readLocals 2 (Cursor.ofBytes [0x08, 0x0F, 0x0E]) =
        .ok [0x07, 0x02, 0x08, 0x0F, 0x0E] last := by
  obtain ⟨reading, capturing, -, again⟩ :=
    capturedLocals_kept (M := Unit) (W := Rehearsal.World)
  obtain ⟨last, read, behind⟩ : ∃ last, readLocals 2
      (RawSource.ofPointer (some pointerLocals) RawSource.defaultLimit) =
      .ok [0x07, 0x02, 0x08, 0x0F, 0x0E] last ∧ last.rest = some [0x99] := ⟨_, rfl, rfl⟩
  have apart : splitLocals [0x07, 0x02, 0x08, 0x0F, 0x0E] = .ok [[0x08], [0x0F, 0x0E]] := rfl
  have apart' : splitLocals [0x07, 0x80, 0x02, 0x08, 0x0F, 0x0E] = .ok [[0x08], [0x0F, 0x0E]] := rfl
  obtain ⟨-, kept⟩ := reading _ _ _ _ _ read
  obtain ⟨final, done⟩ : ∃ final, Succeeds Process.enter Process.sift
      (captureBody ⟨.identity, .v45, .x64⟩ 3 pointerEvent)
      (Process.idle .fresh (⟨some (), .ofMemory ⟨⟨[]⟩, [], []⟩⟩ : Workspace Unit Rehearsal.World))
      () final := ⟨_, rfl⟩
  obtain ⟨request, body, asked, staged, signature⟩ := capturing _ _ _ _ _ _ _ done
  cases asked
  obtain ⟨cursor, passes, -⟩ := exists_passes_ofBytes [0x08, 0x0F, 0x0E] []
  obtain ⟨blob, read', -⟩ := again _ _ apart' _ _ _ passes
  obtain ⟨_, read'', -, same⟩ := again _ _ apart _ _ _ passes
  cases same [0x02] (isShortest_iff.mpr rfl) rfl
  cases read'.symm.trans read''
  exact ⟨last, read, behind, apart, kept, ⟨final, body, staged, signature _ _ (by decide) read⟩,
    apart', cursor, read'⟩

end CilCapture.Capture
