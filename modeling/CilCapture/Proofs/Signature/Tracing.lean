import CilCapture.Proofs.Signature.Variables

/-!
# Walks that note what happens

A traced source notes every byte that is read through it and every read that fails. The traced walk
is the walk over types with two more things noted: how deep every walk over a single type lies, and
how many bytes every repetition of a counted step took. Noting makes no difference to what is read
(`traces_walk`).

`Tracks` says what a step adds to a log: events that only occur on a walk that goes on, and, where
the step fails, at most one failing read and the repetitions that it breaks (`Ending`). Such steps
compose, so the walk is one of them (`tracks_walkAround`), whatever is around its parts.

Two things have to be shown of a traced walk and are kept apart: that it comes to what the walk
comes to (`Mirrors`), and that its log has a certain form (`Tracks`). Both are closed under the ways
in which steps are put together, so each has one lemma for every combinator and one for every
elementary step.
-/

namespace CilCapture.Signature

/-! ## Readers on other sources -/

/-- A reader whose way to read integers works on every source. -/
class PortableReader (ρ : Type) extends Reader ρ where
  integerOn : {σ : Type} → [ByteSource σ] → EStateM Fault σ Nat
  integer_eq : integer = integerOn (σ := ρ)
  integerOn_eq : ∀ {σ : Type} [ByteSource σ], integerOn (σ := σ) = readCompressed

instance : PortableReader Cursor where
  integerOn := readBits
  integer_eq := rfl
  integerOn_eq := readBits_eq

instance : PortableReader RawSource where
  integerOn := readCompressed
  integer_eq := rfl
  integerOn_eq := rfl

/-! ## Logs -/

/-- What can happen on a walk over a type. -/
inductive Event where
  | read
  | refused
  /-- The walk over a type begins, this many others being in progress. -/
  | called (depth : Nat)
  /-- A repetition of a counted step is over, after this many bytes. -/
  | turned (bytes : Nat)
  /-- A repetition of a counted step fails. -/
  | broke
  deriving DecidableEq, Repr

/-- A source, the walks in progress on it, and a log. -/
structure Traced (ρ : Type) where
  source : ρ
  calls : Nat
  log : List Event

namespace Traced

variable {ρ : Type}

def start (source : ρ) : Traced ρ := ⟨source, 0, []⟩

/-- Bytes read so far. -/
def reads (traced : Traced ρ) : Nat := traced.log.count .read

def note (event : Event) (traced : Traced ρ) : Traced ρ :=
  { traced with log := traced.log ++ [event] }

def next [ByteSource ρ] : EStateM Fault (Traced ρ) UInt8 := fun traced =>
  match ByteSource.next traced.source with
  | .ok byte source => .ok byte (note .read { traced with source })
  | .error fault source => .error fault (note .refused { traced with source })

instance [ByteSource ρ] : ByteSource (Traced ρ) := ⟨next⟩

/-- A traced reader reads integers its own way. -/
instance [PortableReader ρ] : Reader (Traced ρ) := ⟨PortableReader.integerOn ρ⟩

/-- Notes how a repetition of a counted step ends. -/
def turn (step : EStateM Fault (Traced ρ) Unit) : EStateM Fault (Traced ρ) Unit := fun traced =>
  match step traced with
  | .ok () after => .ok () (note (.turned (after.reads - traced.reads)) after)
  | .error fault after => .error fault (note .broke after)

/-- A traced source on which the walk over one more type begins. -/
def entered (traced : Traced ρ) : Traced ρ :=
  { traced.note (.called traced.calls) with calls := traced.calls + 1 }

/-- Notes that the walk over a type begins, which is in progress until it ends. -/
def call (step : EStateM Fault (Traced ρ) Unit) : EStateM Fault (Traced ρ) Unit := fun traced =>
  match step traced.entered with
  | .ok () after => .ok () { after with calls := traced.calls }
  | .error fault after => .error fault { after with calls := traced.calls }

/-- The walk over a type, with everything noted. -/
def walk [PortableReader ρ] : EStateM Fault (Traced ρ) Unit :=
  Reader.walkAround turn call (maxNesting + 1)

end Traced

/-! ## Noting makes no difference -/

section

variable {ρ : Type}

/-- A traced source beside the source itself. -/
def Traces (traced : Traced ρ) (source : ρ) : Prop := traced.source = source

/-- On a traced source a byte is read as on the source. -/
theorem traces_next [ByteSource ρ] : Mirrors (Traces (ρ := ρ)) ByteSource.next ByteSource.next := by
  rintro traced _ rfl
  show resultOf (Traced.next traced) = _ ∧ Traces (finalState (Traced.next traced)) _
  unfold Traced.next
  cases ByteSource.next traced.source <;> exact ⟨rfl, rfl⟩

/-- Noting how a repetition ends changes nothing on the source. -/
theorem traces_turn {step : EStateM Fault (Traced ρ) Unit} {twin : EStateM Fault ρ Unit}
    (mirrors : Mirrors Traces step twin) : Mirrors Traces (Traced.turn step) twin := by
  intro traced source here
  obtain ⟨same, there⟩ := mirrors here
  unfold Traced.turn
  cases taken : step traced <;> rw [taken] at same there <;> exact ⟨same, there⟩

/-- Counting the walks in progress changes nothing on the source. -/
theorem traces_call {step : EStateM Fault (Traced ρ) Unit} {twin : EStateM Fault ρ Unit}
    (mirrors : Mirrors Traces step twin) : Mirrors Traces (Traced.call step) twin := by
  intro traced source here
  obtain ⟨same, there⟩ := @mirrors traced.entered source here
  unfold Traced.call
  cases taken : step traced.entered <;> rw [taken] at same there <;> exact ⟨same, there⟩

/-- A traced reader reads integers its own way still. -/
theorem traces_integer [PortableReader ρ] :
    Mirrors (Traces (ρ := ρ)) Reader.integer Reader.integer := by
  show Mirrors Traces (PortableReader.integerOn ρ) Reader.integer
  rw [PortableReader.integer_eq, PortableReader.integerOn_eq, PortableReader.integerOn_eq]
  exact mirrors_readCompressed traces_next

/-- The traced walk is the walk of the reader. -/
theorem traces_walk [PortableReader ρ] :
    Mirrors Traces (Traced.walk (ρ := ρ)) Reader.passType := by
  have walks : Mirrors Traces (Traced.walk (ρ := ρ)) (Reader.walkAround id id (maxNesting + 1)) :=
    mirrors_walkAround traces_next traces_integer traces_turn traces_call _
  rwa [Reader.walkAround_id] at walks

end

/-! ## What a step adds to a log -/

/-- An event that leaves a walk going on, within its bounds. -/
def Event.Advances : Event → Prop
  | .read => True
  | .called depth => depth ≤ maxNesting + 1
  | .turned bytes => 1 ≤ bytes
  | .refused | .broke => False

/-- The end of the log of a failed step: at most one failing read, and the repetitions that the
failure breaks. -/
structure Ending (ending : List Event) : Prop where
  stops : ∀ event ∈ ending, event = .refused ∨ event = .broke
  breaks : ∀ event ∈ ending.tail, event = .broke

theorem ending_nil : Ending [] := ⟨by simp, by simp⟩

theorem ending_refused : Ending [.refused] := ⟨by simp, by simp⟩

/-- A repetition around a failed step breaks as well. -/
theorem Ending.concat {ending : List Event} (before : Ending ending) :
    Ending (ending ++ [.broke]) where
  stops event mem := by
    rcases List.mem_append.mp mem with mem | mem
    · exact before.stops event mem
    · exact .inr (List.mem_singleton.mp mem)
  breaks event mem := by
    cases ending with
    | nil => cases mem
    | cons first rest =>
      rcases List.mem_append.mp mem with mem | mem
      · exact before.breaks event mem
      · exact List.mem_singleton.mp mem

/-- Between two states a source has handed out bytes, and the log has grown by the given events and
the given ending. -/
structure Grows {ρ : Type} (left : ρ → Nat) (before after : Traced ρ)
    (steps ending : List Event) : Prop where
  log_eq : after.log = before.log ++ (steps ++ ending)
  advances : ∀ event ∈ steps, event.Advances
  left_eq : left before.source = left after.source + steps.count .read
  calls_eq : after.calls = before.calls

theorem Grows.refl {ρ : Type} (left : ρ → Nat) (traced : Traced ρ) :
    Grows left traced traced [] [] := ⟨by simp, by simp, by simp, rfl⟩

/-- Of two steps the first one has succeeded, so only the second may have an ending. -/
theorem Grows.trans {ρ : Type} {left : ρ → Nat} {before middle after : Traced ρ}
    {steps steps' ending : List Event} (first : Grows left before middle steps [])
    (second : Grows left middle after steps' ending) :
    Grows left before after (steps ++ steps') ending where
  log_eq := by rw [second.log_eq, first.log_eq]; simp
  advances event mem := (List.mem_append.mp mem).elim (first.advances event) (second.advances event)
  left_eq := by rw [first.left_eq, second.left_eq, List.count_append]; omega
  calls_eq := second.calls_eq.trans first.calls_eq

/-- A step reads at least so many bytes or fails, and adds to the log what is allowed to it, if it
is started with room for so many calls. The state that it works on has a traced source in it. -/
structure Tracks {ρ σ ε α : Type} (view : σ → Traced ρ) (left : ρ → Nat) (height least : Nat)
    (step : EStateM ε σ α) : Prop where
  ok : ∀ {state value after}, (view state).calls + height ≤ maxNesting + 2 →
    step state = .ok value after →
    ∃ steps, Grows left (view state) (view after) steps [] ∧ least ≤ steps.count .read
  error : ∀ {state fault after}, (view state).calls + height ≤ maxNesting + 2 →
    step state = .error fault after →
    ∃ steps ending, Grows left (view state) (view after) steps ending ∧ Ending ending

section

variable {ρ σ ε α β : Type} {view : σ → Traced ρ} {left : ρ → Nat} {height least : Nat}

namespace Tracks

/-- A step that does nothing reads nothing and logs nothing. -/
theorem pure (value : α) : Tracks view left height 0 (pure value : EStateM ε σ α) where
  ok _ done := by
    cases done
    exact ⟨[], .refl _ _, Nat.zero_le _⟩
  error _ failed := nomatch failed

/-- A step that fails has read whatever it was to read. -/
theorem throw (failure : ε) : Tracks view left height least (throw failure : EStateM ε σ α) where
  ok _ done := nomatch done
  error _ failed := by
    cases failed
    exact ⟨[], [], .refl _ _, ending_nil⟩

/-- With more room, and fewer bytes asked for, it is the same. -/
theorem mono {height' least' : Nat} {step : EStateM ε σ α}
    (tracks : Tracks view left height least step) (room : height ≤ height')
    (fewer : least' ≤ least) : Tracks view left height' least' step where
  ok bound done := by
    obtain ⟨steps, grows, enough⟩ := tracks.ok (by omega) done
    exact ⟨steps, grows, Nat.le_trans fewer enough⟩
  error bound failed := tracks.error (by omega) failed

/-- How many bytes are read may be forgotten. -/
theorem forget {step : EStateM ε σ α} (tracks : Tracks view left height least step) :
    Tracks view left height 0 step :=
  tracks.mono (Nat.le_refl _) (Nat.zero_le _)

/-- Two steps read at least what each of them does, taken together. -/
theorem both {least' : Nat} {step : EStateM ε σ α} {next : α → EStateM ε σ β}
    (first : Tracks view left height least step)
    (second : ∀ value, Tracks view left height least' (next value)) :
    Tracks view left height (least + least') (step >>= next) where
  ok bound done := by
    obtain ⟨value, middle, one, other⟩ := run_bind_eq_ok.mp done
    obtain ⟨steps, grows, enough⟩ := first.ok bound one
    obtain ⟨steps', grows', enough'⟩ := (second value).ok (by rwa [grows.calls_eq]) other
    refine ⟨steps ++ steps', grows.trans grows', ?_⟩
    rw [List.count_append]
    exact Nat.add_le_add enough enough'
  error bound failed := by
    rcases run_bind_eq_error.mp failed with failed | ⟨value, middle, one, failed⟩
    · exact first.error bound failed
    · obtain ⟨steps, grows, -⟩ := first.ok bound one
      obtain ⟨steps', ending, grows', ends⟩ :=
        (second value).error (by rwa [grows.calls_eq]) failed
      exact ⟨_, ending, grows.trans grows', ends⟩

/-- Two steps read at least what the first one does. -/
theorem bind {step : EStateM ε σ α} {next : α → EStateM ε σ β}
    (first : Tracks view left height least step)
    (second : ∀ value, Tracks view left height 0 (next value)) :
    Tracks view left height least (step >>= next) :=
  first.both second

/-- A failure may be told in other words. -/
theorem adapt {ε' : Type} {step : EStateM ε σ α} (tracks : Tracks view left height least step)
    (tell : ε → ε') : Tracks view left height least (EStateM.adaptExcept tell step) where
  ok {state value after} bound done := by
    unfold EStateM.adaptExcept at done
    split at done <;> cases done
    next taken => exact tracks.ok bound taken
  error {state failure after} bound failed := by
    unfold EStateM.adaptExcept at failed
    split at failed <;> cases failed
    next taken => exact tracks.error bound taken

/-- A choice is tracked if both of its parts are. -/
theorem ite {condition : Prop} [Decidable condition] {yes no : EStateM ε σ α}
    (one : Tracks view left height least yes) (other : Tracks view left height least no) :
    Tracks view left height least (if condition then yes else no) := by
  split
  next => exact one
  next => exact other

/-- Repetitions are tracked; there may be none, so no byte is sure to be read. -/
theorem times {step : EStateM Fault σ Unit} (tracks : Tracks view left height least step)
    (count : Nat) : Tracks view left height 0 (times count step) := by
  induction count with
  | zero => exact .pure ()
  | succ count ih => exact (tracks.bind fun _ => ih).forget

end Tracks

section

variable [ByteSource σ] (next : Tracks view left height 1 (ByteSource.next (ρ := σ)))
include next

/-- Reading an integer takes a byte at least. -/
theorem tracks_readCompressed : Tracks view left height 1 (readCompressed (ρ := σ)) := by
  have last (value : UInt8 → Nat) : Tracks view left height 0 (do
      let byte ← ByteSource.next
      return value byte : EStateM Fault σ Nat) := (next.bind fun _ => .pure _).forget
  exact next.bind fun lead => .ite (.pure _) <| .ite (last _) <|
    .ite (next.bind fun _ => (next.bind fun _ => last _).forget).forget (.throw _)

end

/-- The walk tracks when its single bytes, its integers and what is around its parts do. -/
theorem tracks_walkAround [Reader σ] {turn call : EStateM Fault σ Unit → EStateM Fault σ Unit}
    (next : ∀ height, Tracks view left height 1 (ByteSource.next (ρ := σ)))
    (integer : ∀ height, Tracks view left height 1 (Reader.integer (ρ := σ)))
    (turns : ∀ {height step}, Tracks view left height 1 step →
      Tracks view left height 1 (turn step))
    (calls : ∀ {height step}, Tracks view left height 1 step →
      Tracks view left (height + 1) 1 (call step)) (levels : Nat) :
    Tracks view left (levels + 1) 1 (Reader.walkAround turn call levels) := by
  have pass (height : Nat) : Tracks view left height 1 (Reader.passInteger (ρ := σ)) :=
    (integer height).bind fun _ => .pure ()
  have counted {height : Nat} {step : EStateM Fault σ Unit}
      (inner : Tracks view left height 1 step) :
      Tracks view left height 0 (Reader.passCounted (turn step)) :=
    ((integer height).bind fun count => (turns inner).times count).forget
  -- Out of levels, a walk still begins before it is refused, so it needs room as well.
  induction levels with
  | zero => exact calls (.throw _)
  | succ levels ih =>
    refine calls ((next _).bind fun tag => ?_)
    cases Shape.ofTag? tag with
    | none => exact .throw _
    | some shape =>
      have pass := pass (levels + 1)
      cases shape with
      | primitive => exact .pure ()
      | indexed => exact pass.forget
      | wrapper => exact ih.forget
      | modifier => exact (pass.bind fun _ => ih.forget).forget
      | array =>
        have lists := (counted pass).bind fun _ => counted pass
        exact (ih.bind fun _ => (pass.bind fun _ => lists).forget).forget
      | instantiation =>
        exact ((next _).bind fun _ => (pass.bind fun _ => counted ih).forget).forget
      | function =>
        have rest := ((integer _).bind fun parameters => (turns ih).times (parameters + 1)).forget
        exact ((next _).bind fun _ => .ite (pass.bind fun _ => rest).forget rest).forget

end

end CilCapture.Signature
