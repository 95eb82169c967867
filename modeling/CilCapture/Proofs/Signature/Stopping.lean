import CilCapture.Proofs.Signature.Tracing

/-!
# Walks that stop with the data

Counts in a signature are declared by whoever wrote it, but every repetition of a counted step reads
at least one byte or breaks the walk. So the bytes that are left bound everything that a walk does,
whatever it is told to repeat (`reading_stopsWithData`).

The proof composes `Tracks` along the code. A byte source enters it only through `Spends`: what it
has left is one less after every byte. At the end the log of a whole walk is read off
(`Tracks.grows`), and each part of the statement is one of its properties.

That a repetition that is over has read at least one byte is what bounds the declared counts; the
repetitions themselves are noted around the step, in the code as it is (`walkAround`).
-/

namespace CilCapture.Signature

/-! ## Sources that run out -/

/-- A source has one byte less after every byte that it hands out, and as many after a refusal. -/
structure Spends {ρ : Type} [ByteSource ρ] (left : ρ → Nat) : Prop where
  ok : ∀ {source byte after}, ByteSource.next source = .ok byte after →
    left source = left after + 1
  error : ∀ {source fault after}, ByteSource.next source = .error fault after →
    left source = left after

/-- Bytes that a bounded source of native memory has still to hand out; none of a null pointer. -/
def RawSource.left (source : RawSource) : Nat :=
  min (source.limit - source.consumed) (source.rest.getD []).length

/-- A cursor has what is ahead of it to hand out. -/
theorem spends_cursor : Spends Cursor.remaining where
  ok next := by
    rw [Cursor.remaining, (next_cursor_eq_ok_iff.mp next).1]
    rfl
  error {source fault after} next := by
    change Cursor.next source = _ at next
    unfold Cursor.next at next
    split at next <;> cases next
    rfl

/-- Native memory hands out bytes up to its bound, and a null pointer none. -/
theorem spends_raw : Spends RawSource.left where
  ok {source byte after} next := by
    change RawSource.next source = _ at next
    unfold RawSource.next at next
    split at next
    next => cases next
    next below =>
      split at next
      next first rest rest_eq =>
        cases next
        simp only [RawSource.left, rest_eq, Option.getD_some, List.length_cons]
        omega
      next => cases next
  error {source fault after} next := by
    change RawSource.next source = _ at next
    unfold RawSource.next at next
    split at next
    next => cases next; rfl
    next => split at next <;> cases next; rfl

/-! ## What is noted -/

section

variable {ρ : Type} {left : ρ → Nat} {height least : Nat}

/-- Reading a byte is a read if it succeeds, and the one refusal if not. -/
theorem tracks_next [ByteSource ρ] (spends : Spends left) :
    Tracks id left height 1 (ByteSource.next (ρ := Traced ρ)) where
  ok {traced byte after} _ next := by
    change Traced.next traced = _ at next
    unfold Traced.next at next
    split at next <;> cases next
    next source taken =>
      refine ⟨[.read], ⟨by simp [Traced.note], by simp [Event.Advances], ?_, rfl⟩, by simp⟩
      simpa [Traced.note] using spends.ok taken
  error {traced fault after} _ next := by
    change Traced.next traced = _ at next
    unfold Traced.next at next
    split at next <;> cases next
    next source taken =>
      refine ⟨[], [.refused], ⟨by simp [Traced.note], by simp, ?_, rfl⟩, ending_refused⟩
      simpa [Traced.note] using spends.error taken

/-- What is recorded is read from the traced source behind. -/
theorem tracks_recording [ByteSource ρ] (spends : Spends left) :
    Tracks Recording.source left height 1 (ByteSource.next (ρ := Recording (Traced ρ))) where
  ok {recording byte after} room next := by
    change Recording.next recording = _ at next
    unfold Recording.next at next
    split at next <;> cases next
    next source taken => exact (tracks_next spends).ok room taken
  error {recording fault after} room next := by
    change Recording.next recording = _ at next
    unfold Recording.next at next
    split at next <;> cases next
    next source taken => exact (tracks_next spends).error room taken

/-- A repetition that is over has read what it noted. -/
theorem tracks_turn {step : EStateM Fault (Traced ρ) Unit} (tracks : Tracks id left height 1 step) :
    Tracks id left height 1 (Traced.turn step) where
  ok {traced value after} room done := by
    unfold Traced.turn at done
    split at done <;> cases done
    next middle taken =>
      obtain ⟨steps, grows, enough⟩ := tracks.ok room taken
      have reads : middle.reads - traced.reads = steps.count .read := by
        have log_eq : middle.log = traced.log ++ (steps ++ []) := grows.log_eq
        rw [Traced.reads, Traced.reads, log_eq, List.append_nil, List.count_append]
        omega
      have turned : Grows left middle (middle.note (.turned (middle.reads - traced.reads)))
          [.turned (middle.reads - traced.reads)] [] := by
        refine ⟨rfl, ?_, rfl, rfl⟩
        intro event mem
        cases List.mem_singleton.mp mem
        exact reads ▸ enough
      refine ⟨_, grows.trans turned, ?_⟩
      rw [List.count_append]
      exact Nat.le_add_right_of_le enough
  error {traced fault after} room failed := by
    unfold Traced.turn at failed
    split at failed <;> cases failed
    next middle taken =>
      obtain ⟨steps, ending, grows, ends⟩ := tracks.error room taken
      have log_eq : middle.log = traced.log ++ (steps ++ ending) := grows.log_eq
      refine ⟨steps, ending ++ [.broke], ⟨?_, grows.advances, grows.left_eq, grows.calls_eq⟩,
        ends.concat⟩
      simp [Traced.note, log_eq]

/-- What is logged inside of a walk is logged behind its beginning, the walks in progress counted.
-/
theorem Grows.called {traced after : Traced ρ} {steps ending : List Event}
    (grows : Grows left traced.entered after steps ending) (room : traced.calls ≤ maxNesting + 1) :
    Grows left traced { after with calls := traced.calls } (.called traced.calls :: steps)
      ending where
  log_eq := by simpa [Traced.entered, Traced.note] using grows.log_eq
  advances := List.forall_mem_cons.mpr ⟨room, grows.advances⟩
  left_eq := by
    have left_eq : left traced.source = left after.source + steps.count .read := grows.left_eq
    simpa using left_eq
  calls_eq := rfl

/-- A walk over a type needs room for itself and for those that it starts. -/
theorem Traced.entered_room {traced : Traced ρ}
    (room : traced.calls + (height + 1) ≤ maxNesting + 2) :
    traced.calls ≤ maxNesting + 1 ∧ traced.entered.calls + height ≤ maxNesting + 2 := by
  have calls_eq : traced.entered.calls = traced.calls + 1 := rfl
  omega

/-- A walk inside another one takes one of the calls that there is room for. -/
theorem tracks_call {step : EStateM Fault (Traced ρ) Unit}
    (tracks : Tracks id left height least step) :
    Tracks id left (height + 1) least (Traced.call step) where
  ok {traced value after} room done := by
    obtain ⟨outer, inner⟩ := Traced.entered_room room
    unfold Traced.call at done
    split at done <;> cases done
    next middle taken =>
      obtain ⟨steps, grows, enough⟩ := tracks.ok inner taken
      exact ⟨_, grows.called outer, by simpa using enough⟩
  error {traced fault after} room failed := by
    obtain ⟨outer, inner⟩ := Traced.entered_room room
    unfold Traced.call at failed
    split at failed <;> cases failed
    next middle taken =>
      obtain ⟨steps, ending, grows, ends⟩ := tracks.error inner taken
      exact ⟨_, ending, grows.called outer, ends⟩

end

/-! ## Steps as a whole -/

section

variable {ρ : Type} {left : ρ → Nat}

/-- The walk over a type with everything noted keeps within its bounds: it has room for as many
calls as there are levels. -/
theorem tracks_walk [PortableReader ρ] (spends : Spends left) :
    Tracks id left (maxNesting + 2) 1 (Traced.walk (ρ := ρ)) := by
  refine tracks_walkAround (fun _ => tracks_next spends) (fun height => ?_) tracks_turn tracks_call
    (maxNesting + 1)
  show Tracks id left height 1 (PortableReader.integerOn ρ)
  rw [PortableReader.integerOn_eq]
  exact tracks_readCompressed (tracks_next spends)

/-- A walk over a type keeps within its bounds on any source that reads from the traced one, as a
recording does. -/
theorem tracks_skipType {σ : Type} [ByteSource σ] {view : σ → Traced ρ}
    (next : ∀ height, Tracks view left height 1 (ByteSource.next (ρ := σ))) :
    Tracks view left (maxNesting + 2) 1 (skipType (ρ := σ)) := by
  let _ : Reader σ := {}
  have walk : Tracks view left (maxNesting + 2) 1 (Reader.walkAround id id (maxNesting + 1)) :=
    tracks_walkAround next (fun height => tracks_readCompressed (next height)) (fun step => step)
      (fun step => step.mono (Nat.le_succ _) (Nat.le_refl _)) _
  rwa [Reader.walkAround_id, Reader.passWithin_eq rfl] at walk

variable [ByteSource ρ]

/-- Reading an encoding takes a byte at least. -/
theorem tracks_readEncoding (spends : Spends left) :
    Tracks id left (maxNesting + 2) 1 (readEncoding (ρ := Traced ρ)) := by
  have walk : Tracks Recording.source left (maxNesting + 2) 1
      (skipType (ρ := Recording (Traced ρ))) := tracks_skipType fun _ => tracks_recording spends
  constructor
  case ok =>
    intro traced encoding after room done
    unfold readEncoding at done
    split at done <;> cases done
    next recording walked => exact walk.ok (by exact room) walked
  case error =>
    intro traced fault after room failed
    unfold readEncoding at failed
    split at failed <;> cases failed
    next recording walked => exact walk.error (by exact room) walked

/-- Every encoding takes a byte. -/
theorem tracks_readEncodings (spends : Spends left) (count : Nat) :
    Tracks id left (maxNesting + 2) count (readEncodings (ρ := Traced ρ) count) := by
  induction count with
  | zero => exact .pure []
  | succ count ih =>
    rw [readEncodings_succ]
    have both := ((tracks_readEncoding spends).adapt (Prod.mk 0)).both fun encoding =>
      (ih.adapt (Prod.map (· + 1) id)).bind fun encodings => .pure (encoding :: encodings)
    exact both.mono (Nat.le_refl _) (Nat.le_of_eq (Nat.add_comm count 1))

/-- Reading locals takes a byte for each of them at least. -/
theorem tracks_readLocals (spends : Spends left) (count : Nat) :
    Tracks id left (maxNesting + 2) count (readLocals (ρ := Traced ρ) count) := by
  rw [readLocals_eq]
  refine ((tracks_readEncodings spends count).adapt _).bind fun encodings => ?_
  cases buildLocals count encodings.flatten with
  | ok blob => exact .pure blob
  | error fault => exact .throw fault

/-- Taking a signature apart takes a byte at least. -/
theorem tracks_readApart (spends : Spends left) :
    Tracks id left (maxNesting + 2) 1 (readApart (ρ := Traced ρ)) := by
  have rest : Tracks id left (maxNesting + 2) 0 (readVariables (ρ := Traced ρ)) :=
    ((tracks_readCompressed (tracks_next spends)).bind fun count =>
      (((tracks_readEncodings spends count).adapt _).bind fun _ => .pure _).forget).forget
  exact (tracks_next spends).bind fun lead => .ite (.bind (.throw _) fun _ => rest) rest

end

/-! ## Logs of whole walks -/

/-- What the log of a step says when the step stops with the data: a byte less is left for every
byte read, one read at most fails, and after a failing read or a failing repetition there is nothing
but the failure of the repetitions around it and of the step. -/
structure Stops {ρ ε α : Type} (left : ρ → Nat) (source : ρ)
    (ended : EStateM.Result ε (Traced ρ) α) : Prop where
  reads_eq : (finalState ended).reads + left (finalState ended).source = left source
  refusals_le : (finalState ended).log.count .refused ≤ 1
  ends : ∀ {front event back}, (finalState ended).log = front ++ event :: back →
    event = .refused ∨ event = .broke →
      (∀ later ∈ back, later = .broke) ∧ ∃ failure, resultOf ended = .error failure

/-- A walk over a type that stops with the data: on top of that, at most so many walks are in
progress when one more begins, every repetition of a counted step that is over has read a byte, and
so has the walk if it succeeds. -/
structure WalkStops {ρ : Type} (left : ρ → Nat) (source : ρ)
    (ended : EStateM.Result Fault (Traced ρ) Unit) : Prop extends Stops left source ended where
  depth_le : ∀ {depth}, .called depth ∈ (finalState ended).log → depth ≤ maxNesting + 1
  turned_pos : ∀ {bytes}, .turned bytes ∈ (finalState ended).log → 0 < bytes
  reads_pos : resultOf ended = .ok () → 0 < (finalState ended).reads

/-- What a step on a traced source comes to, the log forgotten. -/
def Traced.plain {ρ ε α : Type} (ended : EStateM.Result ε (Traced ρ) α) : EStateM.Result ε ρ α :=
  resultIn (finalState ended).source (resultOf ended)

/-- A step that mirrors another one on a traced source comes to the same with the log forgotten. -/
theorem Mirrors.plain_eq {ρ ε α : Type} {step : EStateM ε (Traced ρ) α} {twin : EStateM ε ρ α}
    (mirrors : Mirrors Traces step twin) (source : ρ) :
    Traced.plain (step (.start source)) = twin source := by
  obtain ⟨same, there⟩ := @mirrors (.start source) source rfl
  rw [Traced.plain, same, show (finalState (step (.start source))).source = _ from there,
    ← eq_resultIn rfl]

/-- In the end of a log there is one refusal at most. -/
theorem Ending.count_refused_le {ending : List Event} (ends : Ending ending) :
    ending.count .refused ≤ 1 := by
  cases ending with
  | nil => exact Nat.zero_le 1
  | cons first rest =>
    have none : rest.count .refused = 0 :=
      List.count_eq_zero_of_not_mem fun mem => nomatch ends.breaks _ mem
    rw [List.count_cons, none]
    split <;> omega

/-- Behind every event of an ending only failures of repetitions follow. -/
theorem Ending.of_append {middle back : List Event} {event : Event}
    (ends : Ending (middle ++ event :: back)) : ∀ later ∈ back, later = .broke := by
  intro later mem
  refine ends.breaks later ?_
  cases middle with
  | nil => exact mem
  | cons first middle => exact List.mem_append_right _ (List.mem_cons_of_mem _ mem)

section

variable {ρ ε α : Type} {left : ρ → Nat} {least : Nat} {step : EStateM ε (Traced ρ) α}

/-- What a step from an empty log has logged in all. -/
theorem Tracks.grows (tracks : Tracks id left (maxNesting + 2) least step) (source : ρ) :
    ∃ steps ending, Grows left (.start source) (finalState (step (.start source))) steps ending ∧
      Ending ending ∧
      ∀ value, resultOf (step (.start source)) = .ok value →
        ending = [] ∧ least ≤ steps.count .read := by
  have room : (id (Traced.start source)).calls + (maxNesting + 2) ≤ maxNesting + 2 :=
    Nat.le_of_eq (Nat.zero_add _)
  cases taken : step (.start source) with
  | ok value after =>
    obtain ⟨steps, grows, enough⟩ := tracks.ok room taken
    exact ⟨steps, [], grows, ending_nil, fun _ _ => ⟨rfl, enough⟩⟩
  | error failure after =>
    obtain ⟨steps, ending, grows, ends⟩ := tracks.error room taken
    exact ⟨steps, ending, grows, ends, fun _ done => nomatch done⟩

/-- From the start a source has handed out the bytes that the steps read. -/
theorem Grows.reads_eq {source : ρ} {after : Traced ρ} {steps ending : List Event}
    (grows : Grows left (.start source) after steps ending) (ends : Ending ending) :
    after.reads = steps.count .read := by
  have none : ending.count .read = 0 := by
    refine List.count_eq_zero_of_not_mem fun mem => ?_
    rcases ends.stops _ mem with other | other <;> cases other
  rw [Traced.reads, grows.log_eq, List.count_append, List.count_append, none]
  exact Nat.zero_add _

/-- A step that tracks stops with the data. -/
theorem Tracks.stops (tracks : Tracks id left (maxNesting + 2) least step) (source : ρ) :
    Stops left source (step (.start source)) := by
  obtain ⟨steps, ending, grows, ends, ok⟩ := tracks.grows source
  have log_eq : (finalState (step (.start source))).log = steps ++ ending := grows.log_eq
  have goes_on {event : Event} (last : event = .refused ∨ event = .broke) : event ∉ steps := by
    intro mem
    rcases last with rfl | rfl <;> exact grows.advances _ mem
  refine ⟨?_, ?_, fun {front event back} split last => ?_⟩
  · rw [grows.reads_eq ends, Nat.add_comm]
    exact grows.left_eq.symm
  · rw [log_eq, List.count_append, List.count_eq_zero_of_not_mem (goes_on (.inl rfl)), Nat.zero_add]
    exact ends.count_refused_le
  · -- The event is none of those that go on, so the log is split inside its ending.
    obtain ⟨middle, rfl⟩ : ∃ middle, ending = middle ++ event :: back := by
      rcases List.append_eq_append_iff.mp (log_eq.symm.trans split) with
        ⟨middle, -, ending_eq⟩ | ⟨middle, steps_eq, back_eq⟩
      · exact ⟨middle, ending_eq⟩
      · cases middle with
        | nil => exact ⟨[], back_eq.symm⟩
        | cons first middle =>
          obtain ⟨rfl, -⟩ := List.cons.inj back_eq
          exact absurd (by simp [steps_eq]) (goes_on last)
    refine ⟨ends.of_append, ?_⟩
    cases result_eq : resultOf (step (.start source)) with
    | ok value => cases List.append_eq_nil_iff.mp (ok value result_eq).1 |>.2
    | error failure => exact ⟨failure, rfl⟩

/-- A step that tracks and succeeds reads what it must. -/
theorem Tracks.least_le (tracks : Tracks id left (maxNesting + 2) least step) {source : ρ}
    {value : α} (done : resultOf (step (.start source)) = .ok value) :
    least ≤ (finalState (step (.start source))).reads := by
  obtain ⟨steps, ending, grows, ends, ok⟩ := tracks.grows source
  rw [grows.reads_eq ends]
  exact (ok value done).2

/-- The walk over a type stops with the data: what its log says, told of the walk itself. -/
theorem walkStops [PortableReader ρ] (spends : Spends left) (source : ρ) :
    WalkStops left source (Traced.walk (.start source)) := by
  have tracks := tracks_walk (ρ := ρ) spends
  obtain ⟨steps, ending, grows, ends, -⟩ := tracks.grows source
  have noted {event : Event} (mem : event ∈ (finalState (Traced.walk (.start source))).log)
      (other : event ≠ .refused ∧ event ≠ .broke) : event.Advances := by
    have log_eq : (finalState (Traced.walk (.start source))).log = steps ++ ending := grows.log_eq
    rcases List.mem_append.mp (log_eq ▸ mem) with mem | mem
    · exact grows.advances event mem
    · exact (ends.stops event mem).elim (fun is => absurd is other.1) fun is => absurd is other.2
  exact {
    toStops := tracks.stops source
    depth_le := fun mem => noted mem (by simp)
    turned_pos := fun mem => noted mem (by simp)
    reads_pos := tracks.least_le }

end

/-- On a traced source a walk over a type, and the reading of any number of locals, come to the same
as without, and stop with the data. -/
structure StopsWithData {ρ : Type} [PortableReader ρ] (left : ρ → Nat) (source : ρ) : Prop where
  walk_eq : Traced.plain (Traced.walk (.start source)) = Reader.passType source
  walk : WalkStops left source (Traced.walk (.start source))
  locals_eq : ∀ count, Traced.plain (readLocals count (.start source)) = readLocals count source
  locals : ∀ count, Stops left source (readLocals count (.start source))
  count_le : ∀ {count blob}, resultOf (readLocals count (Traced.start source)) = .ok blob →
    count ≤ (finalState (readLocals count (Traced.start source))).reads

/-- Each of the two, the walk and the reading of locals, mirrors itself on a traced source and is
tracked there. -/
theorem stopsWithData {ρ : Type} [PortableReader ρ] {left : ρ → Nat} (spends : Spends left)
    (source : ρ) : StopsWithData left source where
  walk_eq := traces_walk.plain_eq source
  walk := walkStops spends source
  locals_eq count := (mirrors_readLocals traces_next count).plain_eq source
  locals count := (tracks_readLocals spends count).stops source
  count_le := (tracks_readLocals spends _).least_le

/-- Whatever a signature declares, and however much: walks over types and the reading of locals, by
a cursor or from native memory below a limit, stop with the data, and so does taking a signature
apart. -/
theorem reading_stopsWithData :
    (∀ cursor : Cursor, StopsWithData Cursor.remaining cursor) ∧
      (∀ source : RawSource, source.left ≤ source.limit - source.consumed ∧
        StopsWithData RawSource.left source) ∧
      ∀ blob : Bytes,
        splitLocals blob =
            checkEnd (Traced.plain (readApart (.start (Cursor.ofBytes blob)))) ∧
          Stops Cursor.remaining (Cursor.ofBytes blob)
            (readApart (.start (Cursor.ofBytes blob))) := by
  refine ⟨stopsWithData spends_cursor, fun source => ?_, fun blob => ?_⟩
  · exact ⟨Nat.min_le_left _ _, stopsWithData spends_raw source⟩
  · refine ⟨?_, (tracks_readApart spends_cursor).stops _⟩
    rw [splitLocals_eq, (mirrors_readApart traces_next).plain_eq]

/-- An array of one dimension that declares more than five hundred million sizes, two bytes before
the end. -/
example : (finalState (Traced.walk (.start (Cursor.ofBytes
    [0x14, 0x08, 0x01, 0xDF, 0xFF, 0xFF, 0xFF, 0x00, 0x00])))).log =
    [.called 0, .read, .called 1, .read, .read, .read, .read, .read, .read, .read, .turned 1,
      .read, .turned 1, .refused, .broke] := by
  decide +kernel

end CilCapture.Signature
