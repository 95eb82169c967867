import CilCapture.Proofs.Engine.Offsets
import Mathlib.Data.List.Induction

/-!
# What the text of an offset table means

The table that a text holds is told here line by line, without the reader: what a line assigns
(`Assigns`), what is wrong with it (`LineFault`), and which of the lines that assign to one name
counts (`LastAssigns`). While the lines are read the draft agrees with those read so far
(`TableDraft.Agrees`), so that the table is the one the text means, and a fault is that of the first
line that has one, or the first name that is missing (`OffsetTable.parse_exact`).

The draft is compared with the lines read so far, so the induction is on the lines from the end: one
line more changes what the last assignment to its name is and leaves all others
(`lastAssigns_append_iff`). A name that is not known is no fault; it is the one kind of line that
changes nothing.

What an offset or a version is spelled like is said by `Numeral.Spells`, which admits more than is
ever written: small letters, leading zeros, a plus sign, a mark in either case.
-/

namespace CilCapture.Engine

/-! ## Values -/

/-- A text that spells a version: four decimal words joined by dots, with blanks around them. -/
def Version.Spelled (text : List Char) (version : Version) : Prop :=
  ∃ parts, Text.trim text = ['.'].intercalate parts ∧
    List.Forall₂ (fun part value => Numeral.Spells 10 part value.toNat) parts version.parts

/-- A text that spells an offset: a hexadecimal word, and in front of it at most one mark. -/
def OffsetSpelled (text : List Char) (offset : UInt32) : Prop :=
  ∃ mark digits, mark ∈ [[], ['0', 'x'], ['0', 'X']] ∧ text = mark ++ digits ∧
    Numeral.Spells 16 digits offset.toNat

/-- The parts of a version are read just when there is room for them and each of them spells a word
of sixteen bits. -/
theorem Version.readParts_eq_ok_iff {text : String} {room : Nat} {parts : List (List Char)}
    {values : List UInt16} :
    readParts text room parts = .ok values ↔ parts.length ≤ room ∧
      List.Forall₂ (fun part value => Numeral.Spells 10 part value.toNat) parts values := by
  induction parts generalizing room values with
  | nil => cases room <;> simp [readParts, eq_comm]
  | cons part parts ih =>
    cases room with
    | zero => simp [readParts]
    | succ room =>
      rw [readParts, List.length_cons, Nat.add_le_add_iff_right, List.forall₂_cons_left_iff]
      cases word : Numeral.readWord? 10 16 part with
      | none =>
        constructor
        · intro same
          cases same
        · rintro ⟨-, value, _, spelled, -⟩
          have found := Numeral.readWord?_eq_some_iff.mpr ⟨spelled, value.toNat_lt⟩
          cases word.symm.trans found
      | some number =>
        dsimp only
        obtain ⟨spelled, small⟩ := Numeral.readWord?_eq_some_iff.mp word
        simp only [map_eq_ok, ih]
        constructor
        · rintro ⟨rest, ⟨few, others⟩, rfl⟩
          refine ⟨few, UInt16.ofNat number, rest, ?_, others, rfl⟩
          rwa [UInt16.toNat_ofNat', Nat.mod_eq_of_lt small]
        · rintro ⟨few, value, rest, spelled', others, rfl⟩
          have found := Numeral.readWord?_eq_some_iff.mpr ⟨spelled', value.toNat_lt⟩
          cases word.symm.trans found
          exact ⟨rest, ⟨few, others⟩, by rw [UInt16.ofNat_toNat]⟩

/-- A text is read as the version that it spells. -/
theorem Version.parse_eq_ok_iff {text : String} {version : Version} :
    Version.parse text = .ok version ↔ Spelled text.toList version := by
  rw [Version.parse, bind_eq_ok]
  simp only [readParts_eq_ok_iff]
  constructor
  · rintro ⟨values, ⟨-, spelled⟩, built⟩
    split at built
    next major minor build revision =>
      cases built
      exact ⟨_, (Text.intercalate_splitAt _).symm, spelled⟩
    next => cases built
  · rintro ⟨parts, joined, spelled⟩
    have four : parts.length = 4 := spelled.length_eq
    have some_part : parts ≠ [] := List.ne_nil_of_length_pos (by omega)
    have dotless : ∀ part ∈ parts, '.' ∉ part := by
      intro part mem dot
      obtain ⟨value, -, numeral⟩ := exists_of_mem_left spelled mem
      rcases numeral.digit_or_plus dot with plus | ⟨worth, digit⟩
      · exact absurd plus (by decide)
      · cases digit
    rw [joined, Text.splitAt_intercalate some_part dotless]
    exact ⟨version.parts, ⟨Nat.le_of_eq four, spelled⟩, rfl⟩

/-- An offset is read of what is left behind the mark. -/
theorem readWord?_withoutHexMark_iff {text : List Char} {offset : UInt32} :
    Numeral.readWord? 16 32 (withoutHexMark text) = some offset.toNat ↔
      OffsetSpelled text offset := by
  rw [Numeral.readWord?_eq_some_iff, and_iff_left offset.toNat_lt]
  constructor
  · intro spelled
    unfold withoutHexMark at spelled
    split at spelled
    next digits small =>
      exact ⟨['0', 'x'], digits, by simp, Text.strip?_eq_some_iff.mp small, spelled⟩
    next =>
      cases capital : Text.strip? ['0', 'X'] text with
      | none =>
        rw [capital] at spelled
        exact ⟨[], text, by simp, rfl, spelled⟩
      | some digits =>
        rw [capital] at spelled
        exact ⟨['0', 'X'], digits, by simp, Text.strip?_eq_some_iff.mp capital, spelled⟩
  · rintro ⟨mark, digits, mem, rfl, spelled⟩
    -- no mark can be stripped from the digits themselves: they contain no `x`
    have absent {c : Char} (other : c ≠ '+') (no_digit : Numeral.digitValue? 16 c = none) :
        c ∉ digits := by
      intro there
      rcases spelled.digit_or_plus there with plus | ⟨worth, digit⟩
      · exact other plus
      · cases no_digit.symm.trans digit
    have unmarked : withoutHexMark (mark ++ digits) = digits := by
      simp only [List.mem_cons, List.not_mem_nil, or_false] at mem
      rcases mem with rfl | rfl | rfl
      · have no_small : 'x' ∉ digits := absent (by decide) rfl
        have no_capital : 'X' ∉ digits := absent (by decide) rfl
        rw [List.nil_append, withoutHexMark,
          Text.strip?_eq_none (List.mem_cons_of_mem _ List.mem_cons_self) no_small,
          Text.strip?_eq_none (List.mem_cons_of_mem _ List.mem_cons_self) no_capital]
        rfl
      · rfl
      · rfl
    rwa [unmarked]

/-! ## Lines -/

/-- A line that is as a table asks for: blank, or an assignment, of a version if the name is one of
a version and of an offset if it is one of an offset. -/
structure FineLine (line : List Char) : Prop where
  assigns : Text.trim line = [] ∨ '=' ∈ Text.trim line
  version : ∀ {key : String} {value : List Char}, Assigns line key value →
    key = engineVersionKey ∨ key = compilerVersionKey → ∃ version, Version.Spelled value version
  offset : ∀ {key : String} {value : List Char}, Assigns line key value → key ∈ offsetKeys →
    ∃ offset, OffsetSpelled value offset

/-- What is wrong with a line of the given number. -/
inductive LineFault (number : Nat) (line : List Char) : Fault → Prop
  | notAssignment (full : Text.trim line ≠ []) (signless : '=' ∉ Text.trim line) :
    LineFault number line (.malformed (.notAssignment number (String.ofList (Text.trim line))))
  | version {key : String} {value : List Char} {fault : Fault} (assigns : Assigns line key value)
    (known : key = engineVersionKey ∨ key = compilerVersionKey)
    (failed : Version.parse (String.ofList value) = .error fault) : LineFault number line fault
  | offset {key : String} {value : List Char} (assigns : Assigns line key value)
    (known : key ∈ offsetKeys) (misspelled : ∀ offset, ¬ OffsetSpelled value offset) :
    LineFault number line (.malformed (.offsetValue key (String.ofList value)))

/-- What a line is read as. -/
inductive Says (line : List Char) : TableLine → Prop
  | blank (empty : Text.trim line = []) : Says line .blank
  | engineVersion {value : List Char} {version : Version}
    (assigns : Assigns line engineVersionKey value) (spelled : Version.Spelled value version) :
    Says line (.engineVersion version)
  | compilerVersion {value : List Char} {version : Version}
    (assigns : Assigns line compilerVersionKey value) (spelled : Version.Spelled value version) :
    Says line (.compilerVersion version)
  | offset {value : List Char} {offset : UInt32} (site : Site)
    (assigns : Assigns line site.key value) (spelled : OffsetSpelled value offset) :
    Says line (.offset site.position site.key offset)
  | unknown {key : String} {value : List Char} (assigns : Assigns line key value)
    (unknown : key ∉ requiredKeys) : Says line (.unknown key)

/-- A line with a sign of an assignment assigns something to some name. -/
theorem exists_assigns {line : List Char} (signed : '=' ∈ Text.trim line) :
    ∃ key value, Assigns line key value := by
  cases cut : Text.cut? '=' (Text.trim line) with
  | none => exact absurd signed (Text.cut?_eq_none_iff.mp cut)
  | some parts => exact ⟨_, _, assigns_iff.mpr ⟨parts.1, parts.2, cut, rfl, rfl⟩⟩

/-- A blank line assigns nothing. -/
theorem not_assigns_of_blank {line value : List Char} {key : String}
    (empty : Text.trim line = []) : ¬ Assigns line key value := by
  rintro ⟨before, after, split, -⟩
  rw [empty] at split
  exact List.append_ne_nil_of_right_ne_nil before (List.cons_ne_nil _ _) split.symm

/-- Every site has its name among those of the offsets. -/
theorem Site.key_mem (site : Site) : site.key ∈ offsetKeys := by
  cases site <;> decide

/-- The names of offsets are those of the sites. -/
theorem exists_site {key : String} (known : key ∈ offsetKeys) : ∃ site : Site, key = site.key := by
  have keys_eq : offsetKeys = Site.all.map Site.key := rfl
  rw [keys_eq] at known
  obtain ⟨site, -, rfl⟩ := List.mem_map.mp known
  exact ⟨site, rfl⟩

/-- A line is read as what it says, or there is something wrong with it. -/
theorem TableLine.parse_cases (number : Nat) (line : List Char) :
    (∃ entry, TableLine.parse number line = .ok entry ∧ Says line entry) ∨
      ∃ fault, LineFault number line fault := by
  by_cases empty : Text.trim line = []
  · refine .inl ⟨.blank, ?_, .blank empty⟩
    simp only [TableLine.parse, empty]
    rfl
  by_cases signed : '=' ∈ Text.trim line
  swap
  · exact .inr ⟨_, .notAssignment empty signed⟩
  obtain ⟨key, value, assigns⟩ := exists_assigns signed
  -- both version lines, which differ in their key and in the entry they make
  have told (make : Version → TableLine) (known : key = engineVersionKey ∨ key = compilerVersionKey)
      (said : ∀ {version}, Version.Spelled value version → Says line (make version)) :
      (∃ entry, make <$> Version.parse (String.ofList value) = .ok entry ∧ Says line entry) ∨
        ∃ fault, LineFault number line fault := by
    cases parsed : Version.parse (String.ofList value) with
    | ok version =>
      have spelled := Version.parse_eq_ok_iff.mp parsed
      rw [String.toList_ofList] at spelled
      exact .inl ⟨make version, rfl, said spelled⟩
    | error fault => exact .inr ⟨fault, .version assigns known parsed⟩
  rw [TableLine.parse_of_assigns number assigns]
  split
  next engine =>
    subst engine
    exact told .engineVersion (.inl rfl) (.engineVersion assigns)
  next not_engine =>
    split
    next compiler =>
      subst compiler
      exact told .compilerVersion (.inr rfl) (.compilerVersion assigns)
    next not_compiler =>
      -- neither version: the key is an offset of the table, or one that nobody knows
      by_cases known : key ∈ offsetKeys
      · obtain ⟨site, rfl⟩ := exists_site known
        rw [site.idxOf?_key]
        by_cases spells : ∃ offset, OffsetSpelled value offset
        · obtain ⟨offset, spelled⟩ := spells
          refine .inl ⟨.offset site.position site.key offset, ?_, .offset site assigns spelled⟩
          simp only [readWord?_withoutHexMark_iff.mpr spelled, UInt32.ofNat_toNat]
        · exact .inr ⟨_, .offset assigns known (not_exists.mp spells)⟩
      · have unknown : key ∉ requiredKeys := by
          simp [requiredKeys, known, not_engine, not_compiler]
        rw [List.idxOf?_eq_none_iff.mpr known]
        exact .inl ⟨.unknown key, rfl, .unknown assigns unknown⟩

/-- A table asks for the offsets and the two versions. -/
theorem mem_requiredKeys {key : String} :
    key ∈ requiredKeys ↔ key ∈ offsetKeys ∨ key = engineVersionKey ∨ key = compilerVersionKey := by
  simp [requiredKeys]

/-- A line that says something is a fine line. -/
theorem Says.fine {line : List Char} {entry : TableLine} (said : Says line entry) :
    FineLine line := by
  have signed {key : String} {value : List Char} (assigns : Assigns line key value) :
      '=' ∈ Text.trim line := by
    obtain ⟨before, after, split, -⟩ := assigns
    rw [split]
    exact List.mem_append_right _ List.mem_cons_self
  have no_offset : engineVersionKey ∉ offsetKeys ∧ compilerVersionKey ∉ offsetKeys := by decide
  cases said with
  | blank empty =>
    exact ⟨.inl empty, fun assigns => absurd assigns (not_assigns_of_blank empty),
      fun assigns => absurd assigns (not_assigns_of_blank empty)⟩
  | engineVersion assigns spelled =>
    refine ⟨.inr (signed assigns), fun assigns' _ => ?_, fun assigns' known => ?_⟩
    · obtain ⟨-, rfl⟩ := assigns.unique assigns'
      exact ⟨_, spelled⟩
    · obtain ⟨rfl, -⟩ := assigns.unique assigns'
      exact absurd known no_offset.1
  | compilerVersion assigns spelled =>
    refine ⟨.inr (signed assigns), fun assigns' _ => ?_, fun assigns' known => ?_⟩
    · obtain ⟨-, rfl⟩ := assigns.unique assigns'
      exact ⟨_, spelled⟩
    · obtain ⟨rfl, -⟩ := assigns.unique assigns'
      exact absurd known no_offset.2
  | offset site assigns spelled =>
    refine ⟨.inr (signed assigns), fun assigns' known => ?_, fun assigns' _ => ?_⟩
    · obtain ⟨rfl, -⟩ := assigns.unique assigns'
      exact absurd known (not_or.mpr site.key_ne_versionKeys)
    · obtain ⟨-, rfl⟩ := assigns.unique assigns'
      exact ⟨_, spelled⟩
  | unknown assigns unknown =>
    refine ⟨.inr (signed assigns), fun assigns' known => ?_, fun assigns' known => ?_⟩
    · obtain ⟨rfl, -⟩ := assigns.unique assigns'
      exact absurd (mem_requiredKeys.mpr (.inr known)) unknown
    · obtain ⟨rfl, -⟩ := assigns.unique assigns'
      exact absurd (mem_requiredKeys.mpr (.inl known)) unknown

/-- A line with a fault is not as a table asks for, so the two are told apart. -/
theorem LineFault.not_fine {number : Nat} {line : List Char} {fault : Fault}
    (wrong : LineFault number line fault) : ¬ FineLine line := by
  intro fine
  cases wrong with
  | notAssignment full signless => exact fine.assigns.elim full signless
  | @version key value fault assigns known failed =>
    obtain ⟨version, spelled⟩ := fine.version assigns known
    have parsed : Version.parse (String.ofList value) = .ok version := by
      rwa [Version.parse_eq_ok_iff, String.toList_ofList]
    cases failed.symm.trans parsed
  | offset assigns known misspelled =>
    obtain ⟨offset, spelled⟩ := fine.offset assigns known
    exact misspelled offset spelled

/-- What is wrong with a line is what reading it fails with. -/
theorem LineFault.parse_eq {number : Nat} {line : List Char} {fault : Fault}
    (wrong : LineFault number line fault) : TableLine.parse number line = .error fault := by
  cases wrong with
  | notAssignment full signless =>
    have uncut := Text.cut?_eq_none_iff.mpr signless
    have nonempty : (Text.trim line).isEmpty = false := by
      rwa [← Bool.not_eq_true, List.isEmpty_iff]
    simp only [TableLine.parse, uncut, nonempty]
    rfl
  | version assigns known failed =>
    rw [TableLine.parse_of_assigns number assigns, failed]
    rcases known with rfl | rfl
    · rfl
    · rw [if_neg (by decide)]
      rfl
  | @offset key value assigns known misspelled =>
    obtain ⟨site, rfl⟩ := exists_site known
    rw [TableLine.parse_of_assigns number assigns, if_neg site.key_ne_versionKeys.1,
      if_neg site.key_ne_versionKeys.2, site.idxOf?_key]
    cases read : Numeral.readWord? 16 32 (withoutHexMark value) with
    | none => rfl
    | some word =>
      have small := (Numeral.readWord?_eq_some_iff.mp read).2
      have same : (UInt32.ofNat word).toNat = word :=
        UInt32.toNat_ofNat'.trans (Nat.mod_eq_of_lt small)
      rw [← same, readWord?_withoutHexMark_iff] at read
      exact absurd read (misspelled _)

/-! ## Names and their values -/

/-- Some line assigns to a name. -/
def Occurs (lines : List (List Char)) (key : String) : Prop :=
  ∃ line ∈ lines, ∃ value, Assigns line key value

/-- The last line that assigns to a name assigns a value to it. -/
def LastAssigns (lines : List (List Char)) (key : String) (value : List Char) : Prop :=
  ∃ before line after, lines = before ++ line :: after ∧ Assigns line key value ∧
    ∀ later ∈ after, ∀ other, ¬ Assigns later key other

section

variable {lines : List (List Char)} {line value : List Char} {key : String}

/-- A name occurs in a longer text if it did before or the last line assigns to it. -/
theorem occurs_append_iff :
    Occurs (lines ++ [line]) key ↔ Occurs lines key ∨ ∃ value, Assigns line key value := by
  simp [Occurs, or_and_right, exists_or]

/-- The last line counts if it assigns to the name; otherwise the last one before it does. -/
theorem lastAssigns_append_iff : LastAssigns (lines ++ [line]) key value ↔
    Assigns line key value ∨ (∀ other, ¬ Assigns line key other) ∧ LastAssigns lines key value := by
  constructor
  · rintro ⟨before, last, after, split, assigns, none_later⟩
    rcases List.eq_nil_or_concat after with rfl | ⟨between, other, rfl⟩
    · obtain ⟨-, same⟩ := List.append_inj' split rfl
      cases same
      exact .inl assigns
    · rw [List.concat_eq_append, ← List.cons_append, ← List.append_assoc] at split
      obtain ⟨rfl, same⟩ := List.append_inj' split rfl
      cases same
      rw [List.concat_eq_append] at none_later
      exact .inr ⟨none_later line (by simp), before, last, between, rfl, assigns,
        fun later mem => none_later later (List.mem_append_left _ mem)⟩
  · rintro (assigns | ⟨none_here, before, last, after, rfl, assigns, none_later⟩)
    · exact ⟨lines, line, [], rfl, assigns, nofun⟩
    · refine ⟨before, last, after ++ [line], by simp, assigns, fun later mem => ?_⟩
      rcases List.mem_append.mp mem with mem | mem
      · exact none_later later mem
      · cases List.mem_singleton.mp mem
        exact none_here

/-- The last value of a name is one. -/
theorem LastAssigns.unique {value' : List Char} (last : LastAssigns lines key value)
    (last' : LastAssigns lines key value') : value = value' := by
  induction lines using List.reverseRecOn with
  | nil =>
    obtain ⟨before, line, after, split, -⟩ := last
    exact absurd split.symm (List.append_ne_nil_of_right_ne_nil _ (List.cons_ne_nil _ _))
  | append_singleton lines line ih =>
    rcases lastAssigns_append_iff.mp last with here | ⟨none_here, before⟩
    · rcases lastAssigns_append_iff.mp last' with here' | ⟨none_here, -⟩
      · exact (here.unique here').2
      · exact absurd here (none_here value)
    · rcases lastAssigns_append_iff.mp last' with here' | ⟨-, before'⟩
      · exact absurd here' (none_here value')
      · exact ih before before'

/-- A name that some line assigns to has a last value. -/
theorem exists_lastAssigns (occurs : Occurs lines key) : ∃ value, LastAssigns lines key value := by
  induction lines using List.reverseRecOn with
  | nil =>
    obtain ⟨line, mem, -⟩ := occurs
    cases mem
  | append_singleton lines line ih =>
    by_cases here : ∃ value, Assigns line key value
    · obtain ⟨value, assigns⟩ := here
      exact ⟨value, lastAssigns_append_iff.mpr (.inl assigns)⟩
    · obtain ⟨value, last⟩ := ih ((occurs_append_iff.mp occurs).resolve_right here)
      exact ⟨value, lastAssigns_append_iff.mpr (.inr ⟨not_exists.mp here, last⟩)⟩

end

/-! ## Drafts -/

namespace TableDraft

/-- A draft that holds what some lines mean, of the names that occur in them. -/
structure Agrees (lines : List (List Char)) (draft : TableDraft) : Prop where
  seen : ∀ {place : Nat} {key : String}, requiredKeys[place]? = some key →
    (place ∈ draft.seen ↔ Occurs lines key)
  engineVersion : ∀ {value : List Char}, LastAssigns lines engineVersionKey value →
    Version.Spelled value draft.table.engineVersion
  compilerVersion : ∀ {value : List Char}, LastAssigns lines compilerVersionKey value →
    Version.Spelled value draft.table.compilerVersion
  offset : ∀ {site : Site} {value : List Char}, LastAssigns lines site.key value →
    OffsetSpelled value (draft.table.offset site)

/-- The empty draft holds what no lines mean. -/
theorem agrees_empty : Agrees [] .empty := by
  have none_last {key : String} {value : List Char} : ¬ LastAssigns [] key value := by
    rintro ⟨before, line, after, split, -⟩
    exact List.append_ne_nil_of_right_ne_nil before (List.cons_ne_nil _ _) split.symm
  refine ⟨fun _ => ?_, fun last => absurd last none_last, fun last => absurd last none_last,
    fun last => absurd last none_last⟩
  exact iff_of_false List.not_mem_nil fun ⟨_, mem, _⟩ => List.not_mem_nil mem

variable {lines : List (List Char)} {line : List Char} {draft : TableDraft}

/-- A name that a line does not assign to keeps its last value. -/
theorem last_of_other {key other : String} {value last : List Char}
    (assigns : Assigns line key value) (different : other ≠ key)
    (last_eq : LastAssigns (lines ++ [line]) other last) : LastAssigns lines other last := by
  rcases lastAssigns_append_iff.mp last_eq with here | ⟨-, before⟩
  · exact absurd (here.unique assigns).1 different
  · exact before

/-- The name that a line assigns to has the line's value as its last one. -/
theorem last_of_assigns {key : String} {value last : List Char} (assigns : Assigns line key value)
    (last_eq : LastAssigns (lines ++ [line]) key last) : last = value := by
  rcases lastAssigns_append_iff.mp last_eq with here | ⟨none_here, -⟩
  · exact (here.unique assigns).2
  · exact absurd assigns (none_here value)

/-- A line that assigns to none of the names that are asked for changes nothing. -/
theorem Agrees.skip (agrees : Agrees lines draft)
    (none_here : ∀ key ∈ requiredKeys, ∀ value, ¬ Assigns line key value) :
    Agrees (lines ++ [line]) draft := by
  have before {key : String} {value : List Char} (known : key ∈ requiredKeys)
      (last : LastAssigns (lines ++ [line]) key value) : LastAssigns lines key value :=
    ((lastAssigns_append_iff.mp last).resolve_left (none_here key known value)).2
  constructor
  · intro place key there
    have known := List.mem_of_getElem? there
    rw [agrees.seen there, occurs_append_iff,
      or_iff_left (not_exists.mpr (none_here key known))]
  · exact fun last => agrees.engineVersion (before (mem_requiredKeys.mpr (.inr (.inl rfl))) last)
  · exact fun last =>
      agrees.compilerVersion (before (mem_requiredKeys.mpr (.inr (.inr rfl))) last)
  · exact fun {site} _ last =>
      agrees.offset (before (mem_requiredKeys.mpr (.inl site.key_mem)) last)

/-- No name is asked for twice. -/
theorem place_eq_iff {place here : Nat} {key known : String}
    (there : requiredKeys[place]? = some key) (at_here : requiredKeys[here]? = some known) :
    place = here ↔ key = known := by
  have nodup : requiredKeys.Nodup := by decide
  constructor
  · rintro rfl
    exact Option.some_inj.mp (there.symm.trans at_here)
  · rintro rfl
    obtain ⟨bound, -⟩ := List.getElem?_eq_some_iff.mp there
    exact (List.getElem?_inj bound nodup).mp (there.trans at_here.symm)

/-- The name that a line assigns to has been seen from then on. -/
theorem Agrees.seen_cons (agrees : Agrees lines draft) {here : Nat} {known : String}
    {value : List Char} (at_here : requiredKeys[here]? = some known)
    (assigns : Assigns line known value) {place : Nat} {key : String}
    (there : requiredKeys[place]? = some key) :
    place ∈ here :: draft.seen ↔ Occurs (lines ++ [line]) key := by
  have assigns_iff : (∃ value, Assigns line key value) ↔ key = known := by
    constructor
    · rintro ⟨other, assigns'⟩
      exact (assigns'.unique assigns).1
    · rintro rfl
      exact ⟨value, assigns⟩
  rw [List.mem_cons, agrees.seen there, occurs_append_iff, place_eq_iff there at_here, assigns_iff,
    or_comm]

/-- A site's name stands in its position among the names that are asked for, the offsets being the
first of them. -/
theorem requiredKeys_position (site : Site) : requiredKeys[site.position]? = some site.key := by
  cases site <;> rfl

/-- What a line says is added to what the lines before it mean. -/
theorem Agrees.add (agrees : Agrees lines draft) {entry : TableLine} (said : Says line entry) :
    Agrees (lines ++ [line]) (draft.add entry) := by
  have distinct : engineVersionKey ≠ compilerVersionKey := by decide
  cases said with
  | blank empty => exact agrees.skip fun _ _ _ => not_assigns_of_blank empty
  | unknown assigns unknown =>
    refine agrees.skip fun key known value assigns' => unknown ?_
    rwa [(assigns.unique assigns').1]
  | engineVersion assigns spelled =>
    constructor
    · exact agrees.seen_cons rfl assigns
    · intro last_value last
      rwa [last_of_assigns assigns last]
    · exact fun last => agrees.compilerVersion (last_of_other assigns distinct.symm last)
    · exact fun {site} _ last =>
        agrees.offset (last_of_other assigns site.key_ne_versionKeys.1 last)
  | compilerVersion assigns spelled =>
    constructor
    · exact agrees.seen_cons rfl assigns
    · exact fun last => agrees.engineVersion (last_of_other assigns distinct last)
    · intro last_value last
      rwa [last_of_assigns assigns last]
    · exact fun {site} _ last =>
        agrees.offset (last_of_other assigns site.key_ne_versionKeys.2 last)
  | @offset value offset site assigns spelled =>
    rw [TableDraft.add, site.ofKey?_key]
    constructor
    · exact agrees.seen_cons (requiredKeys_position site) assigns
    · exact fun last => agrees.engineVersion
        (last_of_other assigns site.key_ne_versionKeys.1.symm last)
    · exact fun last => agrees.compilerVersion
        (last_of_other assigns site.key_ne_versionKeys.2.symm last)
    -- an offset assigned twice keeps the last value; any other key of the table is left as it was
    · intro other last_value last
      by_cases same : other = site
      · subst same
        rw [last_of_assigns assigns last]
        simpa [OffsetTable.setOffset] using spelled
      · have different : other.key ≠ site.key := by
          intro keys_eq
          have sites_eq := other.ofKey?_key.symm.trans ((congrArg Site.ofKey? keys_eq).trans
            site.ofKey?_key)
          exact same (Option.some_inj.mp sites_eq)
        simpa [OffsetTable.setOffset, same] using
          agrees.offset (last_of_other assigns different last)

/-- With no name missing the draft is the table. -/
theorem Agrees.finish_of_occurs (agrees : Agrees lines draft)
    (all : ∀ key ∈ requiredKeys, Occurs lines key) : draft.finish = .ok draft.table := by
  have none_missing :
      requiredKeys.zipIdx.find? (fun required => required.2 ∉ draft.seen) = none := by
    refine List.find?_eq_none.mpr fun ⟨key, place⟩ mem => ?_
    have there := List.mem_zipIdx_iff_getElem?.mp mem
    have seen := (agrees.seen there).mpr (all key (List.mem_of_getElem? there))
    simpa using seen
  rw [finish, none_missing]

/-- The first name that is missing is the one that is told. -/
theorem Agrees.finish_of_missing (agrees : Agrees lines draft) {before after : List String}
    {key : String} (split : requiredKeys = before ++ key :: after)
    (there : ∀ earlier ∈ before, Occurs lines earlier) (missing : ¬ Occurs lines key) :
    draft.finish = .error (.missingOffset key) := by
  have here : requiredKeys[before.length]? = some key := by
    rw [split]
    simp
  have unseen : before.length ∉ draft.seen := mt (agrees.seen here).mp missing
  have seen : before.zipIdx.find? (fun required => required.2 ∉ draft.seen) = none := by
    refine List.find?_eq_none.mpr fun ⟨earlier, place⟩ mem => ?_
    have at_place := List.mem_zipIdx_iff_getElem?.mp mem
    have at_place' : requiredKeys[place]? = some earlier := by
      rw [split, List.getElem?_append_left (List.getElem?_eq_some_iff.mp at_place).1, at_place]
    have seen := (agrees.seen at_place').mpr (there earlier (List.mem_of_getElem? at_place))
    simpa using seen
  have found : requiredKeys.zipIdx.find? (fun required => required.2 ∉ draft.seen) =
      some (key, before.length) := by
    rw [split, List.zipIdx_append, List.find?_append, seen, List.zipIdx_cons, List.find?_cons]
    simp [unseen]
  rw [finish, found]

/-- A line that can be read is passed. -/
theorem readTableLines_of_ok {number : Nat} {entry : TableLine}
    (parsed : TableLine.parse number line = .ok entry) (rest : List (List Char)) :
    (readTableLines number (line :: rest) draft).1 =
      (readTableLines (number + 1) rest (draft.add entry)).1 := by
  rw [readTableLines, parsed]
  cases entry <;> rfl

/-- Lines that are fine are passed, and the draft then agrees with them too. -/
theorem Agrees.read {read : List (List Char)} (agrees : Agrees read draft)
    (fine : ∀ line ∈ lines, FineLine line) (number : Nat) :
    ∃ last, Agrees (read ++ lines) last ∧ ∀ rest,
      (readTableLines number (lines ++ rest) draft).1 =
        (readTableLines (number + lines.length) rest last).1 := by
  induction lines generalizing read draft number with
  | nil => exact ⟨draft, by rwa [List.append_nil], fun rest => rfl⟩
  | cons line lines ih =>
    obtain ⟨here, there⟩ := List.forall_mem_cons.mp fine
    rcases TableLine.parse_cases number line with ⟨entry, parsed, said⟩ | ⟨fault, wrong⟩
    · obtain ⟨last, agrees', passed⟩ := ih (agrees.add said) there (number + 1)
      refine ⟨last, by simpa using agrees', fun rest => ?_⟩
      rw [List.cons_append, readTableLines_of_ok parsed, passed, List.length_cons,
        Nat.add_right_comm, Nat.add_assoc]
    · exact absurd here wrong.not_fine

end TableDraft

/-! ## Tables -/

/-- The lines of a text. -/
def textLines (text : String) : List (List Char) := Text.splitAt '\n' text.toList

/-- The table that some lines mean: of every name the last line that assigns to it counts. -/
structure Means (lines : List (List Char)) (table : OffsetTable) : Prop where
  engineVersion : ∃ value, LastAssigns lines engineVersionKey value ∧
    Version.Spelled value table.engineVersion
  compilerVersion : ∃ value, LastAssigns lines compilerVersionKey value ∧
    Version.Spelled value table.compilerVersion
  offset : ∀ site : Site, ∃ value, LastAssigns lines site.key value ∧
    OffsetSpelled value (table.offset site)

/-- The first line that is not as a table asks for has a fault. -/
def FirstFault (lines : List (List Char)) (fault : Fault) : Prop :=
  ∃ before line after, lines = before ++ line :: after ∧
    (∀ earlier ∈ before, FineLine earlier) ∧ LineFault (before.length + 1) line fault

/-- The first of the names that are asked for that no line assigns to. -/
def FirstMissing (lines : List (List Char)) (key : String) : Prop :=
  ∃ before after, requiredKeys = before ++ key :: after ∧
    (∀ earlier ∈ before, Occurs lines earlier) ∧ ¬ Occurs lines key

/-- A text spells one version at most, the one that is read of it. -/
theorem Version.Spelled.unique {text : List Char} {version version' : Version}
    (spelled : Spelled text version) (spelled' : Spelled text version') : version = version' := by
  rw [← String.toList_ofList (l := text), ← Version.parse_eq_ok_iff] at spelled spelled'
  exact Except.ok.inj (spelled.symm.trans spelled')

/-- A text spells one offset at most, the one that is read of it. -/
theorem OffsetSpelled.unique {text : List Char} {offset offset' : UInt32}
    (spelled : OffsetSpelled text offset) (spelled' : OffsetSpelled text offset') :
    offset = offset' := by
  rw [← readWord?_withoutHexMark_iff] at spelled spelled'
  exact UInt32.toNat_inj.mp (Option.some_inj.mp (spelled.symm.trans spelled'))

/-- Lines mean at most one table. -/
theorem Means.unique {lines : List (List Char)} {table table' : OffsetTable}
    (means : Means lines table) (means' : Means lines table') : table = table' := by
  obtain ⟨engine, compiler, offset⟩ := table
  obtain ⟨engine', compiler', offset'⟩ := table'
  obtain ⟨⟨value, last, spelled⟩, ⟨value₁, last₁, spelled₁⟩, offsets⟩ := means
  obtain ⟨⟨value', last', spelled'⟩, ⟨value₁', last₁', spelled₁'⟩, offsets'⟩ := means'
  obtain rfl := last.unique last'
  obtain rfl := last₁.unique last₁'
  obtain rfl : engine = engine' := spelled.unique spelled'
  obtain rfl : compiler = compiler' := spelled₁.unique spelled₁'
  congr 1
  funext site
  obtain ⟨value, last, spelled⟩ := offsets site
  obtain ⟨value', last', spelled'⟩ := offsets' site
  obtain rfl := last.unique last'
  exact spelled.unique spelled'

/-- A name that is assigned to occurs. -/
theorem LastAssigns.occurs {lines : List (List Char)} {key : String} {value : List Char}
    (last : LastAssigns lines key value) : Occurs lines key := by
  obtain ⟨before, line, after, rfl, assigns, -⟩ := last
  exact ⟨line, by simp, value, assigns⟩

/-- Where lines mean a table no name is missing. -/
theorem Means.occurs {lines : List (List Char)} {table : OffsetTable} (means : Means lines table) :
    ∀ key ∈ requiredKeys, Occurs lines key := by
  intro key known
  rcases mem_requiredKeys.mp known with known | rfl | rfl
  · obtain ⟨site, rfl⟩ := exists_site known
    obtain ⟨value, last, -⟩ := means.offset site
    exact last.occurs
  · obtain ⟨value, last, -⟩ := means.engineVersion
    exact last.occurs
  · obtain ⟨value, last, -⟩ := means.compilerVersion
    exact last.occurs

/-- A draft in which no name is missing is what the lines mean. -/
theorem TableDraft.Agrees.means {lines : List (List Char)} {draft : TableDraft}
    (agrees : draft.Agrees lines) (all : ∀ key ∈ requiredKeys, Occurs lines key) :
    Means lines draft.table := by
  have last {key : String} (known : key ∈ requiredKeys) := exists_lastAssigns (all key known)
  constructor
  · obtain ⟨value, last⟩ := last (mem_requiredKeys.mpr (.inr (.inl rfl)))
    exact ⟨value, last, agrees.engineVersion last⟩
  · obtain ⟨value, last⟩ := last (mem_requiredKeys.mpr (.inr (.inr rfl)))
    exact ⟨value, last, agrees.compilerVersion last⟩
  · intro site
    obtain ⟨value, last⟩ := last (mem_requiredKeys.mpr (.inl site.key_mem))
    exact ⟨value, last, agrees.offset last⟩

namespace OffsetTable

/-- Parsing is reading the lines into a draft and finishing it. -/
theorem fst_parse (text : String) :
    (parse text).1 = (readTableLines 1 (textLines text) .empty).1 >>= TableDraft.finish := by
  unfold parse textLines
  rcases readTableLines 1 (Text.splitAt '\n' text.toList) .empty with ⟨_ | _, _⟩ <;> rfl

/-- Lines that are all fine are read to their end. -/
theorem exists_draft {text : String} (fine : ∀ line ∈ textLines text, FineLine line) :
    ∃ draft : TableDraft, draft.Agrees (textLines text) ∧ (parse text).1 = draft.finish := by
  obtain ⟨draft, agrees, passed⟩ := TableDraft.agrees_empty.read fine 1
  refine ⟨draft, agrees, ?_⟩
  have ended := passed []
  rw [List.append_nil] at ended
  rw [fst_parse, ended]
  rfl

/-- Lines that are all fine and name everything are read as a table that they mean. -/
theorem parse_of_occurs {text : String} (fine : ∀ line ∈ textLines text, FineLine line)
    (all : ∀ key ∈ requiredKeys, Occurs (textLines text) key) :
    ∃ table, (parse text).1 = .ok table ∧ Means (textLines text) table := by
  obtain ⟨draft, agrees, parsed⟩ := exists_draft fine
  exact ⟨draft.table, parsed.trans (agrees.finish_of_occurs all), agrees.means all⟩

/-- If the lines are fine and something is missing, the first name that is missing is told. -/
theorem parse_of_missing {text key : String} (fine : ∀ line ∈ textLines text, FineLine line)
    (missing : FirstMissing (textLines text) key) :
    (parse text).1 = .error (.missingOffset key) := by
  obtain ⟨draft, agrees, parsed⟩ := exists_draft fine
  obtain ⟨before, after, split, there, missing⟩ := missing
  exact parsed.trans (agrees.finish_of_missing split there missing)

/-- The first fault among the lines is told, whatever comes after it. -/
theorem parse_of_fault {text : String} {fault : Fault} (first : FirstFault (textLines text) fault) :
    (parse text).1 = .error fault := by
  obtain ⟨before, line, after, split, fine, wrong⟩ := first
  obtain ⟨draft, -, passed⟩ := TableDraft.agrees_empty.read fine 1
  rw [Nat.add_comm] at wrong
  rw [fst_parse, split, passed, readTableLines, wrong.parse_eq]
  rfl

/-- Every text has a table, a name that is missing first or a line that is wrong first. -/
theorem parse_cases (text : String) :
    (∀ line ∈ textLines text, FineLine line) ∧
        ((∀ key ∈ requiredKeys, Occurs (textLines text) key) ∨
          ∃ key, FirstMissing (textLines text) key) ∨
      ∃ fault, FirstFault (textLines text) fault := by
  rcases forall_or_first (textLines text) with fine | ⟨before, line, after, split, fine, other⟩
  · refine .inl ⟨fine, ?_⟩
    rcases forall_or_first requiredKeys with all | ⟨before, key, after, split, there, missing⟩
    · exact .inl all
    · exact .inr ⟨key, before, after, split, there, missing⟩
  · refine .inr ?_
    rcases TableLine.parse_cases (before.length + 1) line with ⟨entry, -, said⟩ | ⟨fault, wrong⟩
    · exact absurd said.fine other
    · exact ⟨fault, before, line, after, split, fine, wrong⟩

/-- A text holds a table exactly when every line is as it should be and every name occurs, and the
table is the one that the lines mean. Otherwise the fault is that of the first line that has one,
or, if none has, that of the first name that is missing. -/
theorem parse_exact (text : String) :
    ((∃ table, (parse text).1 = .ok table) ↔
      (∀ line ∈ textLines text, FineLine line) ∧
        ∀ key ∈ requiredKeys, Occurs (textLines text) key) ∧
    (∀ table, (parse text).1 = .ok table ↔
      (∀ line ∈ textLines text, FineLine line) ∧ Means (textLines text) table) ∧
    ∀ fault, (parse text).1 = .error fault ↔
      FirstFault (textLines text) fault ∨
        (∀ line ∈ textLines text, FineLine line) ∧
          ∃ key, FirstMissing (textLines text) key ∧ fault = .missingOffset key := by
  have parsed {table : OffsetTable} (parsed : (parse text).1 = .ok table) :
      (∀ line ∈ textLines text, FineLine line) ∧
        ∀ key ∈ requiredKeys, Occurs (textLines text) key := by
    rcases parse_cases text with ⟨fine, all | ⟨key, missing⟩⟩ | ⟨fault, first⟩
    · exact ⟨fine, all⟩
    · cases parsed.symm.trans (parse_of_missing fine missing)
    · cases parsed.symm.trans (parse_of_fault first)
  refine ⟨⟨fun ⟨table, same⟩ => parsed same, fun ⟨fine, all⟩ => ?_⟩, fun table => ⟨?_, ?_⟩,
    fun fault => ⟨?_, ?_⟩⟩
  · obtain ⟨table, same, -⟩ := parse_of_occurs fine all
    exact ⟨table, same⟩
  · intro same
    obtain ⟨fine, all⟩ := parsed same
    obtain ⟨table', same', means⟩ := parse_of_occurs fine all
    cases same.symm.trans same'
    exact ⟨fine, means⟩
  · rintro ⟨fine, means⟩
    obtain ⟨table', same, means'⟩ := parse_of_occurs fine means.occurs
    rw [same, means.unique means']
  · intro failed
    rcases parse_cases text with ⟨fine, all | ⟨key, missing⟩⟩ | ⟨found, first⟩
    · obtain ⟨table, same, -⟩ := parse_of_occurs fine all
      cases failed.symm.trans same
    · cases failed.symm.trans (parse_of_missing fine missing)
      exact .inr ⟨fine, key, missing, rfl⟩
    · cases failed.symm.trans (parse_of_fault first)
      exact .inl first
  · rintro (first | ⟨fine, key, missing, rfl⟩)
    · exact parse_of_fault first
    · exact parse_of_missing fine missing

/-- A table with a version, a blank line, a name that is not known and an offset that is no word;
the line behind it is no assignment. -/
def spoiled : String :=
  " CLR_VERSION = 4.0.30319.42000 \n\nCOLOUR=red\nCALL_COMPCOMPILE_RVA=0x10Z\nEND"

/-- The offset that is no word is the first fault of this text: the name that is not known is none,
and the line behind is not looked at. -/
theorem parse_exact_spoiled :
    FirstFault (textLines spoiled)
      (.malformed (.offsetValue "CALL_COMPCOMPILE_RVA" "0x10Z")) := by
  have failed : (parse spoiled).1 =
      .error (.malformed (.offsetValue "CALL_COMPCOMPILE_RVA" "0x10Z")) := by rfl
  obtain first | ⟨-, key, -, same⟩ := ((parse_exact spoiled).2.2 _).mp failed
  · exact first
  · cases same

end OffsetTable

end CilCapture.Engine
