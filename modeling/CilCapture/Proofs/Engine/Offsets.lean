import CilCapture.Engine.Offsets
import CilCapture.Proofs.Outcome
import CilCapture.Proofs.Text.Numeral
import CilCapture.Proofs.Text.Parts

/-!
# Offset tables are read back

A written version is read back as it was, and so is a written table: every offset under the name it
was written with, both versions under theirs, and no notice of a name that is not known
(`OffsetTable.parse_text`).

A table is written from two lists, of names and of values, and read by the names alone. That the
lists go in one order is `zip_offsetKeys`, and that a name gives the offset it was written for is
`Site.ofKey?_key`.

What a line says is one lemma for each kind of assignment. Reading adds up what the lines say
(`readTableLines_of_reads`), whatever their numbers are.

Names and their order are the program's own lists. A site is found among them by evaluation once
(`idxOf?_key`), and the theorem is for every table, since no value is looked at other than by
writing and reading a word.
-/

namespace CilCapture.Engine

/-! ## Versions -/

namespace Version

/-- A version is written as its four parts with dots between them. -/
theorem toList_text (version : Version) :
    version.text.toList =
      ['.'].intercalate (version.parts.map fun part => Numeral.render 10 0 part.toNat) := by
  rw [text, String.toList_intercalate, List.map_map]
  simp only [Function.comp_def, decimal, String.toList_ofList]
  rfl

/-- A written version has no blanks, and so is left alone by trimming. -/
theorem isBlank_of_mem_text {version : Version} {c : Char} (mem : c ∈ version.text.toList) :
    Text.isBlank c = false := by
  rw [toList_text] at mem
  rcases Text.mem_of_mem_intercalate mem with rfl | ⟨part, part_mem, mem⟩
  · decide
  · obtain ⟨value, -, rfl⟩ := List.mem_map.mp part_mem
    exact Numeral.isBlank_of_mem_render (by decide) (by decide) mem

/-- Parts that were rendered are read back, as long as there is room. -/
theorem readParts_rendered (text : String) {room : Nat} {values : List UInt16}
    (few : values.length ≤ room) :
    readParts text room (values.map fun value => Numeral.render 10 0 value.toNat) =
      .ok values := by
  induction values generalizing room with
  | nil => cases room <;> rfl
  | cons value values ih =>
    cases room with
    | zero => cases few
    | succ room =>
      have rest := ih (Nat.le_of_succ_le_succ few)
      rw [List.map_cons, readParts,
        Numeral.readWord?_render (by decide) (by decide) value.toNat_lt]
      dsimp only
      rw [rest, UInt16.ofNat_toNat]
      rfl

/-- A written version is read back. -/
theorem parse_of_text (version : Version) : Version.parse version.text = .ok version := by
  have dotless : ∀ part ∈ version.parts.map fun part => Numeral.render 10 0 part.toNat,
      '.' ∉ part := by
    intro part mem
    obtain ⟨value, -, rfl⟩ := List.mem_map.mp mem
    exact Numeral.not_mem_render (by decide) (by decide)
  have some_part : version.parts.map (fun part => Numeral.render 10 0 part.toNat) ≠ [] :=
    List.cons_ne_nil _ _
  rw [Version.parse, Text.trim_of_no_blank fun _ => isBlank_of_mem_text, toList_text,
    Text.splitAt_intercalate some_part dotless,
    readParts_rendered version.text (Nat.le_refl 4)]
  rfl

end Version

/-! ## Names -/

namespace Site

/-- Every site, in the order of a written table. -/
def all : List Site :=
  [reset, doPrestub, getWrapped, canInline, containsGenericVariables, classConstructorTriggered,
    checkRunClassInit, callCompCompile, nativeCode]

/-- No site is left out of a table. -/
theorem mem_all (site : Site) : site ∈ all := by
  cases site <;> decide

/-- Where the name of a site stands among the names. -/
def position (site : Site) : Nat := offsetKeys.idxOf site.key

/-- The name of a site is found in its position. -/
theorem idxOf?_key (site : Site) : offsetKeys.idxOf? site.key = some site.position := by
  cases site <;> rfl

/-- A name gives the offset of the site that it is the name of. -/
theorem ofKey?_key (site : Site) : ofKey? site.key = some site := by
  cases site <;> rfl

/-- An offset's name is none of the versions', so a line is for one thing only. -/
theorem key_ne_versionKeys (site : Site) :
    site.key ≠ engineVersionKey ∧ site.key ≠ compilerVersionKey := by
  cases site <;> decide

end Site

/-- The written names go in the order of the sites, and so do the written values. -/
theorem zip_offsetKeys (table : OffsetTable) :
    offsetKeys.zip table.values = Site.all.map fun site => (site.key, table.offset site) := by
  have keys_eq : offsetKeys = Site.all.map Site.key := rfl
  have values_eq : table.values = Site.all.map table.offset := rfl
  rw [keys_eq, values_eq, List.zip_map']

/-! ## Lines -/

/-- A line assigns a value to a name: the name stands before the first sign of an assignment, the
value behind it, and blanks around either do not matter. -/
def Assigns (line : List Char) (key : String) (value : List Char) : Prop :=
  ∃ before after, Text.trim line = before ++ '=' :: after ∧ '=' ∉ before ∧
    key = String.ofList (Text.trim before) ∧ value = Text.trim after

/-- An assignment in terms of the cut at its sign. -/
theorem assigns_iff {line value : List Char} {key : String} :
    Assigns line key value ↔
      ∃ before after, Text.cut? '=' (Text.trim line) = some (before, after) ∧
        key = String.ofList (Text.trim before) ∧ value = Text.trim after := by
  simp only [Text.cut?_eq_some_iff, and_assoc]
  exact Iff.rfl

/-- A line assigns at most one value, and to at most one name. -/
theorem Assigns.unique {line value value' : List Char} {key key' : String}
    (assigns : Assigns line key value) (assigns' : Assigns line key' value') :
    key = key' ∧ value = value' := by
  obtain ⟨before, after, cut, rfl, rfl⟩ := assigns_iff.mp assigns
  obtain ⟨before', after', cut', rfl, rfl⟩ := assigns_iff.mp assigns'
  cases cut.symm.trans cut'
  exact ⟨rfl, rfl⟩

/-- A line that assigns a value to a name is read by the name. -/
theorem TableLine.parse_of_assigns (number : Nat) {line value : List Char} {key : String}
    (assigns : Assigns line key value) :
    TableLine.parse number line =
      if key = engineVersionKey then
        TableLine.engineVersion <$> Version.parse (String.ofList value)
      else if key = compilerVersionKey then
        TableLine.compilerVersion <$> Version.parse (String.ofList value)
      else
        match offsetKeys.idxOf? key with
        | none => .ok (.unknown key)
        | some position =>
          match Numeral.readWord? 16 32 (withoutHexMark value) with
          | some word => .ok (.offset position key (UInt32.ofNat word))
          | none => .error (.malformed (.offsetValue key (String.ofList value))) := by
  obtain ⟨before, after, cut, rfl, rfl⟩ := assigns_iff.mp assigns
  have full : (Text.trim line).isEmpty = false := by
    rw [(Text.cut?_eq_some_iff.mp cut).1]
    cases before <;> rfl
  unfold TableLine.parse
  simp only [full, cut, Bool.false_eq_true, if_false, bind_pure_comp]
  rfl

/-- The line that assigns a value to a name. -/
def assignment (key : String) (value : List Char) : List Char := key.toList ++ '=' :: value

/-- A name that a table can assign to: it has no blanks and no sign of an assignment. -/
structure PlainKey (key : String) : Prop where
  full : ∀ c ∈ key.toList, Text.isBlank c = false
  free : '=' ∉ key.toList

/-- Being a plain name can be checked character by character. -/
theorem plainKey_of_all {key : String}
    (plain : (key.toList.all fun c => !Text.isBlank c && c != '=') = true) : PlainKey key := by
  rw [List.all_eq_true] at plain
  constructor
  · intro c mem
    simpa using (Bool.and_eq_true_iff.mp (plain c mem)).1
  · intro mem
    cases plain '=' mem

/-- The names of the versions are plain. -/
theorem plainKey_engineVersion : PlainKey engineVersionKey := plainKey_of_all rfl

theorem plainKey_compilerVersion : PlainKey compilerVersionKey :=
  plainKey_of_all rfl

/-- The names of the offsets are plain. -/
theorem Site.plainKey (site : Site) : PlainKey site.key :=
  plainKey_of_all (by cases site <;> decide +kernel)

section

variable {key : String} {value : List Char}

/-- A written line has no blanks, neither around it nor inside. -/
theorem assignment_full (plain : PlainKey key)
    (value_full : ∀ c ∈ value, Text.isBlank c = false) :
    ∀ c ∈ assignment key value, Text.isBlank c = false := by
  intro c mem
  rcases List.mem_append.mp mem with mem | mem
  · exact plain.full c mem
  · rcases List.mem_cons.mp mem with rfl | mem
    · decide
    · exact value_full c mem

/-- A written line assigns the value to the name: the name has no sign in it, so the first one is
that of the assignment. -/
theorem assigns_assignment (plain : PlainKey key)
    (value_full : ∀ c ∈ value, Text.isBlank c = false) :
    Assigns (assignment key value) key value := by
  refine ⟨key.toList, value, ?_, plain.free, ?_, ?_⟩
  · exact Text.trim_of_no_blank (assignment_full plain value_full)
  · rw [Text.trim_of_no_blank plain.full, String.ofList_toList]
  · rw [Text.trim_of_no_blank value_full]

end

/-- The line of the engine's version is read as it, whatever its number. The two names of versions
are compared before those of the offsets. -/
theorem TableLine.parse_engineVersion (number : Nat) (version : Version) :
    TableLine.parse number (assignment engineVersionKey version.text.toList) =
      .ok (.engineVersion version) := by
  rw [TableLine.parse_of_assigns number
      (assigns_assignment plainKey_engineVersion fun _ => Version.isBlank_of_mem_text),
    if_pos rfl, String.ofList_toList, version.parse_of_text]
  rfl

/-- The line of the compiler's version is read as it, whatever its number. -/
theorem TableLine.parse_compilerVersion (number : Nat) (version : Version) :
    TableLine.parse number (assignment compilerVersionKey version.text.toList) =
      .ok (.compilerVersion version) := by
  rw [TableLine.parse_of_assigns number
      (assigns_assignment plainKey_compilerVersion fun _ => Version.isBlank_of_mem_text),
    if_neg (by decide), if_pos rfl, String.ofList_toList, version.parse_of_text]
  rfl

/-- A hexadecimal numeral holds no mark that it is one. -/
theorem withoutHexMark_render (value : Nat) :
    withoutHexMark (Numeral.render 16 0 value) = Numeral.render 16 0 value := by
  have no_small : 'x' ∉ Numeral.render 16 0 value := Numeral.not_mem_render (by decide) (by decide)
  have no_capital : 'X' ∉ Numeral.render 16 0 value :=
    Numeral.not_mem_render (by decide) (by decide)
  rw [withoutHexMark, Text.strip?_eq_none (List.mem_cons_of_mem _ List.mem_cons_self) no_small,
    Text.strip?_eq_none (List.mem_cons_of_mem _ List.mem_cons_self) no_capital]
  rfl

/-- The line of an offset is read as the offset of its own site. The word is written without a mark,
so there is none to take off. -/
theorem TableLine.parse_offset (number : Nat) (site : Site) (value : UInt32) :
    TableLine.parse number (assignment site.key (Numeral.render 16 0 value.toNat)) =
      .ok (.offset site.position site.key value) := by
  obtain ⟨not_engine, not_compiler⟩ := site.key_ne_versionKeys
  rw [TableLine.parse_of_assigns number (assigns_assignment site.plainKey
      fun _ => Numeral.isBlank_of_mem_render (by decide) (by decide)),
    if_neg not_engine, if_neg not_compiler, site.idxOf?_key, withoutHexMark_render]
  dsimp only
  rw [Numeral.readWord?_render (by decide) (by decide) value.toNat_lt]
  dsimp only
  rw [UInt32.ofNat_toNat]

/-! ## Tables -/

/-- A line that says something known, whatever its number. -/
structure Reads (line : List Char) (entry : TableLine) : Prop where
  parse_eq : ∀ number, TableLine.parse number line = .ok entry
  known : ∀ key, entry ≠ .unknown key

/-- Reading lines adds up what they say. -/
theorem readTableLines_of_reads {lines : List (List Char)} {entries : List TableLine}
    (told : List.Forall₂ Reads lines entries) (number : Nat) (draft : TableDraft) :
    readTableLines number lines draft = (.ok (entries.foldl TableDraft.add draft), []) := by
  induction told generalizing number draft with
  | nil => rfl
  | @cons line entry lines entries first _ ih =>
    rw [readTableLines, first.parse_eq]
    dsimp only
    rw [ih]
    cases entry with
    | unknown key => exact absurd rfl (first.known key)
    | blank | engineVersion _ | compilerVersion _ | offset _ _ _ => rfl

namespace OffsetTable

/-- What the lines of a table say, in order. -/
def entries (table : OffsetTable) : List TableLine :=
  .engineVersion table.engineVersion :: .compilerVersion table.compilerVersion ::
    Site.all.map fun site => .offset site.position site.key (table.offset site)

/-- The lines of a table, in order. -/
def lines (table : OffsetTable) : List (List Char) :=
  assignment engineVersionKey table.engineVersion.text.toList ::
    assignment compilerVersionKey table.compilerVersion.text.toList ::
      Site.all.map fun site => assignment site.key (Numeral.render 16 0 (table.offset site).toNat)

/-- A table is written line by line, each with its end. -/
theorem toList_text (table : OffsetTable) :
    table.text.toList = table.lines.flatMap (· ++ ['\n']) := by
  rw [text, zip_offsetKeys, String.toList_join]
  simp [lines, assignment, hex, List.flatMap_map, String.toList_ofList]

/-- The lines of a written table say its entries one by one. -/
theorem reads_lines (table : OffsetTable) : List.Forall₂ Reads table.lines table.entries := by
  refine .cons ⟨(TableLine.parse_engineVersion · _), nofun⟩
    (.cons ⟨(TableLine.parse_compilerVersion · _), nofun⟩ ?_)
  rw [List.forall₂_map_left_iff, List.forall₂_map_right_iff]
  refine List.forall₂_same.mpr fun site _ => ⟨(TableLine.parse_offset · site _), nofun⟩

/-- No line of a written table has a blank in it. -/
theorem lines_full {table : OffsetTable} {line : List Char} (mem : line ∈ table.lines) :
    ∀ c ∈ line, Text.isBlank c = false := by
  rcases List.mem_cons.mp mem with rfl | mem
  · exact assignment_full plainKey_engineVersion fun _ => Version.isBlank_of_mem_text
  · rcases List.mem_cons.mp mem with rfl | mem
    · exact assignment_full plainKey_compilerVersion fun _ => Version.isBlank_of_mem_text
    · obtain ⟨site, -, rfl⟩ := List.mem_map.mp mem
      exact assignment_full site.plainKey
        fun _ => Numeral.isBlank_of_mem_render (by decide) (by decide)

/-- The end of a line is blank, so no line holds one. -/
theorem newline_not_mem_lines {table : OffsetTable} {line : List Char} (mem : line ∈ table.lines) :
    '\n' ∉ line :=
  fun ends => Bool.false_ne_true (lines_full mem '\n' ends).symm

end OffsetTable

namespace TableDraft

/-- Offsets that are added stand under their sites, and what stood elsewhere stays. -/
theorem foldl_add_offset (offset : Site → UInt32) (sites : List Site) (draft : TableDraft) :
    (sites.map fun site => TableLine.offset site.position site.key (offset site)).foldl add draft =
      { table := { draft.table with
          offset := fun site => if site ∈ sites then offset site else draft.table.offset site }
        seen := (sites.map Site.position).reverse ++ draft.seen } := by
  induction sites generalizing draft with
  | nil => rfl
  | cons first sites ih =>
    rw [List.map_cons, List.foldl_cons, ih, add, first.ofKey?_key]
    simp only [OffsetTable.setOffset, List.map_cons, List.reverse_cons, List.append_assoc,
      List.singleton_append]
    congr 2
    funext site
    by_cases later : site ∈ sites
    · simp [later]
    · by_cases here : site = first <;> simp [later, here]

end TableDraft

namespace OffsetTable

/-- What is added up of a table is the table. -/
theorem finish_entries (table : OffsetTable) :
    (table.entries.foldl TableDraft.add .empty).finish = .ok table := by
  have all_seen : requiredKeys.zipIdx.find? (fun required =>
      required.2 ∉ (Site.all.map Site.position).reverse ++
        [offsetKeys.length + 1, offsetKeys.length]) = none := by
    rfl
  rw [entries, List.foldl_cons, List.foldl_cons, TableDraft.foldl_add_offset, TableDraft.finish]
  simp only [Site.mem_all, if_true]
  rw [TableDraft.add, TableDraft.add, TableDraft.empty, all_seen]

/-- Every version and every table is read back as it was written, the table without a notice. -/
theorem parse_text :
    (∀ version : Version, Version.parse version.text = .ok version) ∧
      ∀ table : OffsetTable, OffsetTable.parse table.text = (.ok table, []) := by
  refine ⟨Version.parse_of_text, fun table => ?_⟩
  have told : List.Forall₂ Reads (table.lines ++ [[]]) (table.entries ++ [.blank]) :=
    List.rel_append table.reads_lines (.cons ⟨fun _ => rfl, nofun⟩ .nil)
  rw [OffsetTable.parse, toList_text,
    Text.splitAt_flatMap fun _ => newline_not_mem_lines, readTableLines_of_reads told,
    List.foldl_append, List.foldl_cons, List.foldl_nil, TableDraft.add]
  dsimp only
  rw [table.finish_entries]

end OffsetTable

end CilCapture.Engine
