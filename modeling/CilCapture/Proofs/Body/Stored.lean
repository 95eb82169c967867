import CilCapture.Proofs.Body.Raw

/-!
# Where a body has its code

A body is a header and the code behind it, and anything may follow. `Stored` says so for both
formats without the reader; the reader finds that code and no other (`stored_of_parse`,
`code_eq_of_stored`).

The relation has a constructor for each header. A reader of it needs no arithmetic of flags: the
fields of a fat header are given, and with them where the code begins and how long it is. It is used
where the shape of a stored body is asked for, as in the search for the packer's constructor.
-/

namespace CilCapture.Body

/-- A body has a code behind its header: the tiny header counts its bytes in six bits, the fat one
in a word, and may be longer than its fields. -/
inductive Stored : (data code : Bytes) → Prop
  | tiny {first : UInt8} {code : Bytes} (rest : Bytes) (format : first.toNat % 4 = 2)
      (counted : first.toNat / 4 = code.length) : Stored (first :: (code ++ rest)) code
  | fat {flags maxStack : UInt16} {localsToken : Token} {extra code : Bytes} (rest : Bytes)
      (format : flags.toNat % 4 = 3)
      (wide : fatHeaderSize + extra.length = headerSizeOf flags.toNat)
      (counted : code.length < 0x100000000) :
      Stored (fatHeader flags.toNat maxStack code.length localsToken ++ (extra ++ (code ++ rest)))
        code

/-! ## What is read is stored -/

/-- A number that was read stands where it was read, written in its width. -/
theorem drop_of_numberAt {width offset value : Nat} {data : Bytes}
    (found : numberAt width offset data = .ok value) :
    data.drop offset = Bytes.ofNat width value ++ data.drop (offset + width) := by
  unfold numberAt at found
  split at found
  next read =>
    cases found
    obtain ⟨-, there⟩ := Bytes.eq_of_readNat read
    rw [there, drop_add_of_drop there (Bytes.length_ofNat _ _)]
  next => cases found

/-- A body that is parsed from a tiny header is stored as one. -/
theorem stored_of_parseTiny {first : UInt8} {tail : Bytes} {raw : RawBody}
    (format : first.toNat % 4 = 2) (parsed : parseTiny first (first :: tail) = .ok raw) :
    Stored (first :: tail) raw.code := by
  unfold parseTiny at parsed
  dsimp only at parsed
  split at parsed
  next => cases parsed
  next long =>
    cases parsed
    rw [List.length_cons] at long
    have stored : Stored (first :: (tail.take (first.toNat / 4) ++ tail.drop (first.toNat / 4)))
        (tail.take (first.toNat / 4)) :=
      .tiny _ format (by rw [List.length_take]; omega)
    rwa [List.take_append_drop] at stored

/-- The fields that are read at the start of a body are those of a fat header. -/
theorem eq_fatHeader_append {data : Bytes} {flags maxStack size token : Nat}
    (flags_eq : numberAt 2 0 data = .ok flags) (stack_eq : numberAt 2 2 data = .ok maxStack)
    (size_eq : numberAt 4 4 data = .ok size) (token_eq : numberAt 4 8 data = .ok token) :
    data = fatHeader flags (UInt16.ofNat maxStack) size ⟨UInt32.ofNat token⟩ ++ data.drop 12 := by
  have stack_same : (UInt16.ofNat maxStack).toNat = maxStack := by
    rw [UInt16.toNat_ofNat']
    exact Nat.mod_eq_of_lt (numberAt_lt stack_eq)
  have token_same : (UInt32.ofNat token).toNat = token := by
    rw [UInt32.toNat_ofNat']
    exact Nat.mod_eq_of_lt (numberAt_lt token_eq)
  rw [fatHeader, stack_same, token_same]
  simp only [List.append_assoc]
  rw [← drop_of_numberAt token_eq, ← drop_of_numberAt size_eq, ← drop_of_numberAt stack_eq,
    ← drop_of_numberAt flags_eq, List.drop_zero]

/-- A string from one place on is what stands before a second place, so many bytes from there on,
and the rest. -/
theorem drop_eq_append {first second : Nat} (ordered : first ≤ second) (size : Nat)
    (data : Bytes) :
    data.drop first = (data.drop first).take (second - first) ++
      ((data.drop second).take size ++ data.drop (second + size)) := by
  have skip : (data.drop first).drop (second - first) = data.drop second := by
    rw [List.drop_drop, Nat.add_sub_of_le ordered]
  rw [← List.drop_drop, List.take_append_drop, ← skip, List.take_append_drop]

/-- A body that is parsed from a fat header is stored as one, with the fields that the header was
read as. -/
theorem stored_of_parseFat {data : Bytes} {raw : RawBody}
    (format : ∀ first ∈ data.head?, first.toNat % 4 = 3) (parsed : parseFat data = .ok raw) :
    Stored data raw.code := by
  unfold parseFat at parsed
  split at parsed
  next => cases parsed
  next =>
    obtain ⟨start, start_eq, parsed⟩ := bind_eq_ok.mp parsed
    obtain ⟨maxStack, stack_eq, parsed⟩ := bind_eq_ok.mp parsed
    obtain ⟨size, size_eq, parsed⟩ := bind_eq_ok.mp parsed
    obtain ⟨token, token_eq, parsed⟩ := bind_eq_ok.mp parsed
    obtain ⟨number, number_eq, rfl⟩ := map_eq_ok.mp token_eq
    -- the first word as the sixteen bits it came from, so that the header can be written again
    obtain ⟨flags, rfl⟩ : ∃ flags : UInt16, flags.toNat = start :=
      ⟨UInt16.ofNat start, UInt16.toNat_ofNat'.trans (Nat.mod_eq_of_lt (numberAt_lt start_eq))⟩
    have header := eq_fatHeader_append start_eq stack_eq size_eq number_eq
    have fat : flags.toNat % 4 = 3 := by
      have first := format (UInt8.ofNat flags.toNat) (by rw [header]; rfl)
      rw [UInt8.toNat_ofNat'] at first
      omega
    dsimp only at parsed
    split at parsed
    next => cases parsed
    next room =>
      rw [not_or, Nat.not_lt, Nat.not_lt, fatHeaderSize] at room
      obtain ⟨wide, long⟩ := room
      have code_length : ((data.drop (flags.toNat / 0x1000 * 4)).take size).length = size := by
        rw [List.length_take, List.length_drop]
        omega
      have extra_length : fatHeaderSize +
          ((data.drop 12).take (flags.toNat / 0x1000 * 4 - 12)).length =
            headerSizeOf flags.toNat := by
        rw [List.length_take, List.length_drop, fatHeaderSize, headerSizeOf]
        omega
      have stored : Stored data ((data.drop (flags.toNat / 0x1000 * 4)).take size) := by
        rw [drop_eq_append wide size data] at header
        have counted := numberAt_lt size_eq
        rw [← code_length] at counted
        have there := @Stored.fat flags (UInt16.ofNat maxStack) ⟨UInt32.ofNat number⟩ _ _
          (data.drop (flags.toNat / 0x1000 * 4 + size)) fat extra_length counted
        rwa [code_length, ← header] at there
      -- with or without sections: these are read behind the code and do not touch it
      split at parsed
      all_goals
        obtain ⟨clauses, -, parsed⟩ := bind_eq_ok.mp parsed
        cases parsed
        exact stored

/-- The code that is read is stored behind the header. -/
theorem stored_of_parse {data : Bytes} {raw : RawBody} (parsed : RawBody.parse data = .ok raw) :
    Stored data raw.code := by
  unfold RawBody.parse at parsed
  split at parsed
  next => cases parsed
  next first tail =>
    split at parsed
    next format => exact stored_of_parseTiny format parsed
    next =>
      split at parsed
      next format =>
        refine stored_of_parseFat (fun other same => ?_) parsed
        cases same
        exact format
      next => cases parsed

/-! ## What is stored is read -/

/-- A body that can be read has no other code than the one that is read. -/
theorem code_eq_of_stored {data code : Bytes} {raw : RawBody} (stored : Stored data code)
    (parsed : RawBody.parse data = .ok raw) : raw.code = code := by
  cases stored with
  | @tiny first _ rest format counted =>
    rw [RawBody.parse, if_pos format, parseTiny] at parsed
    split at parsed
    next => cases parsed
    next =>
      cases parsed
      rw [counted, List.drop_one, List.tail_cons, List.take_left]
  | @fat flags maxStack localsToken extra _ rest format wide counted =>
    have code_eq : ((fatHeader flags.toNat maxStack code.length localsToken ++
        (extra ++ (code ++ rest))).drop (headerSizeOf flags.toNat)).take code.length = code := by
      rw [← List.append_assoc, ← wide, List.drop_left' (by simp), List.take_left]
    rw [parse_of_fatHeader format flags.toNat_lt counted rfl] at parsed
    split at parsed
    next => cases parsed
    next =>
      dsimp only at parsed
      split at parsed
      all_goals
        obtain ⟨clauses, -, parsed⟩ := bind_eq_ok.mp parsed
        cases parsed
        exact code_eq

end CilCapture.Body
