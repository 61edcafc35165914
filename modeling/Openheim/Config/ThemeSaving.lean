import Openheim.Config.Theme

/-
This file shows when saving a theme changes the theme and nothing else.
-/

namespace Openheim.Config

/-- Only `tui.theme_color` differs, and it is the name. -/
def SetsOnlyTheme (name : String) (before after : TomlTable) : Prop :=
  (∀ key, key ≠ "tui" → after.lookup key = before.lookup key) ∧
    ∃ old new, (before.lookup "tui" = some (.table old) ∨ before.lookup "tui" = none ∧ old = []) ∧
      after.lookup "tui" = some (.table new) ∧ new.lookup "theme_color" = some (.string name) ∧
        ∀ key, key ≠ "theme_color" → new.lookup key = old.lookup key

/-- The new text parses to the old configuration with the theme, and its lines are those of the old
text, with their carriage returns, except for the line of the theme. -/
def ChangesOnlyTheme (toml : TomlLibrary) (name contents edited : String) : Prop :=
  (∃ config expected saved, toml.parse contents = .ok config ∧ SetsOnlyTheme name config expected ∧
    toml.parse edited = .ok saved ∧ sameEntries saved expected = true) ∧
  edited.toList = Lines.joinLines ((themeEdit (Lines.lines contents.toList)).apply (themeLine name)
    (Lines.rawLines contents.toList)) (Lines.isEnded contents.toList)

/-- A save that succeeds changes only the theme, and one that fails changes nothing. -/
def SavesOnlyTheme (toml : TomlLibrary) (name : String) (file : Option (List UInt8)) :
    Except Error Unit × Option (List UInt8) → Prop
  | (.ok (), after) => ∃ contents edited, readToString file = .ok contents ∧
      readToString after = .ok edited ∧ ChangesOnlyTheme toml name contents edited
  | (.error _, after) => after = file

/-- The edited text parses to the configuration with the theme. -/
def Accepted (toml : TomlLibrary) (name contents : String) : Prop :=
  ∃ config expected edited, toml.parse contents = .ok config ∧
    withTheme name config = some expected ∧ toml.parse (editedText name contents) = .ok edited ∧
      sameEntries edited expected = true

/-- No line ends in a carriage return and a newline, except the one that is replaced. -/
def PlainNewlines (contents : String) : Prop :=
  ∀ index line, (Lines.rawLines contents.toList)[index]? = some line →
    Lines.IsTerminated contents.toList index → line.getLast? = some '\r' →
      themeEdit (Lines.lines contents.toList) = .replace index

/-- The configuration with the theme differs in nothing else. -/
theorem withTheme_setsOnlyTheme {name : String} {config expected : TomlTable}
    (set_ : withTheme name config = some expected) : SetsOnlyTheme name config expected := by
  unfold withTheme at set_
  split at set_
  · next missing =>
    cases set_
    refine ⟨fun key other => SortedMap.lookup_insert_of_ne other _ _, [], _, .inr ⟨missing, rfl⟩,
      SortedMap.lookup_insert_self _ _ _, rfl, fun key other => ?_⟩
    rw [List.lookup_cons, beq_false_of_ne other]
  · next tui present =>
    cases set_
    exact ⟨fun key other => SortedMap.lookup_insert_of_ne other _ _, tui, _, .inl present,
      SortedMap.lookup_insert_self _ _ _, SortedMap.lookup_insert_self _ _ _,
      fun key other => SortedMap.lookup_insert_of_ne other _ _⟩
  · cases set_

theorem editTheme_cases (toml : TomlLibrary) (path name contents : String) :
    (Accepted toml name contents ∧ editTheme toml path name contents = .ok
        (editedText name contents)) ∨
      (¬ Accepted toml name contents ∧ ∃ error,
          editTheme toml path name contents = .error error) := by
  unfold editTheme Accepted
  cases parsed : toml.parse contents with
  | error reason => exact .inr ⟨by simp, _, rfl⟩
  | ok config =>
      dsimp only
      cases set_ : withTheme name config with
      | none => exact .inr ⟨by simp [set_], _, rfl⟩
      | some expected =>
          dsimp only
          cases again : toml.parse (editedText name contents) with
          | error reason => exact .inr ⟨by simp, _, rfl⟩
          | ok edited =>
              dsimp only
              split
              · next same => exact .inl ⟨⟨config, expected, edited, rfl, set_, rfl, same⟩, rfl⟩
              · next different =>
                refine .inr ⟨?_, _, rfl⟩
                rintro ⟨_, _, _, ⟨⟩, given, ⟨⟩, same⟩
                cases set_.symm.trans given
                exact different same

/-- An edit makes the same lines of two lists exactly when they agree on all
lines but the replaced one. -/
theorem apply_eq_apply_iff (edit : ThemeEdit) (newLine : List Char)
    {first second : List (List Char)} (long : first.length = second.length) :
    edit.apply newLine first = edit.apply newLine second ↔
      ∀ index, edit = .replace index ∨ first[index]? = second[index]? := by
  cases edit with
  | replace index =>
      simp only [ThemeEdit.apply, List.ext_getElem?_iff, List.getElem?_set,
        ThemeEdit.replace.injEq, long]
      refine forall_congr' fun other => ?_
      split
      · next same => exact iff_of_true rfl (.inl same)
      · next different => exact (or_iff_right different).symm
  | insert index =>
      simp only [ThemeEdit.apply, reduceCtorEq, false_or, ← List.ext_getElem?_iff]
      refine ⟨fun same => ?_, fun same => same ▸ rfl⟩
      have erased := congrArg (List.eraseIdx · index) same
      simpa only [List.eraseIdx_insertIdx_self] using erased
  | append =>
      simp only [ThemeEdit.apply, reduceCtorEq, false_or, ← List.ext_getElem?_iff]
      refine ⟨fun same => ?_, fun same => same ▸ rfl⟩
      have front := List.append_cancel_right same
      cases first with
      | nil =>
          cases second with
          | nil => rfl
          | cons => cases long
      | cons line rest =>
          cases second with
          | nil => cases long
          | cons other others => exact List.append_cancel_right front

theorem apply_ne_nil (edit : ThemeEdit) (newLine : List Char) {lines : List (List Char)}
    (some : lines ≠ []) :
    edit.apply newLine lines ≠ [] := by
  have positive := List.length_pos_of_ne_nil some
  refine List.ne_nil_of_length_pos ?_
  cases edit with
  | replace index => rwa [ThemeEdit.apply, List.length_set]
  | insert index => exact Nat.lt_of_lt_of_le positive List.length_le_length_insertIdx
  | append => simp [ThemeEdit.apply]

theorem not_mem_apply {edit : ThemeEdit} {newLine : List Char} {lines : List (List Char)}
    (plain : '\n' ∉ newLine)
    (single : ∀ line ∈ lines, '\n' ∉ line) : ∀ line ∈ edit.apply newLine lines, '\n' ∉ line := by
  intro line member
  cases edit with
  | replace index =>
      rcases List.mem_or_eq_of_mem_set member with old | rfl
      · exact single line old
      · exact plain
  | insert index =>
      by_cases inside : index ≤ lines.length
      · rcases (List.mem_insertIdx inside).mp member with rfl | old
        · exact plain
        · exact single line old
      · rw [ThemeEdit.apply, List.insertIdx_of_length_lt (Nat.lt_of_not_le inside)] at member
        exact single line member
  | append =>
      rw [ThemeEdit.apply] at member
      rcases List.mem_append.mp member with front | last
      · split at front
        · cases front
        · rcases List.mem_append.mp front with old | empty
          · exact single line old
          · rw [List.mem_singleton.mp empty]
            exact List.not_mem_nil
      · rcases List.mem_cons.mp last with rfl | last
        · decide
        · rw [List.mem_singleton.mp last]
          exact plain

theorem not_mem_themeLine {name : String} (clean : isThemeName name = true) :
    '\n' ∉ themeLine name := by
  simp only [isThemeName, List.all_eq_true, decide_eq_true_eq] at clean
  have inside : '\n' ∉ name.toList := fun member => clean _ member (by simp)
  intro member
  rcases List.mem_append.mp member with front | last
  · rcases List.mem_append.mp front with key | value
    · simp at key
    · exact inside value
  · simp at last

/-- An accepted edit changes only the theme exactly when the other lines end in plain newlines. -/
theorem changesOnlyTheme_iff {toml : TomlLibrary} {name contents : String}
    (clean : isThemeName name = true) (accepted : Accepted toml name contents) :
    ChangesOnlyTheme toml name contents (editedText name contents) ↔ PlainNewlines contents := by
  obtain ⟨config, expected, saved, parsed, set_, again, same⟩ := accepted
  have meaning : ∃ config expected saved, toml.parse contents = .ok config ∧
      SetsOnlyTheme name config expected ∧ toml.parse (editedText name contents) = .ok saved ∧
          sameEntries saved expected = true :=
    ⟨config, expected, saved, parsed, withTheme_setsOnlyTheme set_, again, same⟩
  have long : (Lines.lines contents.toList).length = (Lines.rawLines contents.toList).length := by
    rw [Lines.lines_eq_stripTerminated, Lines.length_stripTerminated]
  have texts : (editedText name contents).toList =
        Lines.joinLines ((themeEdit (Lines.lines contents.toList)).apply (themeLine name)
          (Lines.rawLines contents.toList)) (Lines.isEnded contents.toList) ↔
      (themeEdit (Lines.lines contents.toList)).apply (themeLine name)
        (Lines.lines contents.toList) =
        (themeEdit (Lines.lines contents.toList)).apply (themeLine name)
            (Lines.rawLines contents.toList) := by
    rw [editedText, String.toList_ofList]
    refine ⟨fun joined => ?_, fun lists => by rw [lists]⟩
    by_cases empty : Lines.rawLines contents.toList = []
    · rw [empty, List.length_nil] at long
      rw [empty, List.eq_nil_of_length_eq_zero long]
    · have some : Lines.lines contents.toList ≠ [] := by
        intro none_
        rw [none_] at long
        exact empty (List.eq_nil_of_length_eq_zero long.symm)
      exact Lines.joinLines_injective (apply_ne_nil _ _ some) (apply_ne_nil _ _ empty)
        (not_mem_apply (not_mem_themeLine clean) (Lines.not_mem_lines _))
        (not_mem_apply (not_mem_themeLine clean) (Lines.not_mem_rawLines _)) joined
  rw [ChangesOnlyTheme, and_iff_right meaning, texts, apply_eq_apply_iff _ _ long, PlainNewlines]
  refine forall_congr' fun index => ?_
  rw [Lines.getElem?_lines_eq_iff]
  by_cases replaced : themeEdit (Lines.lines contents.toList) = .replace index
  · exact iff_of_true (.inl replaced) fun _ _ _ _ => replaced
  · rw [or_iff_right replaced]
    exact ⟨fun plain line present terminated last => absurd last (plain line present terminated),
      fun plain line present terminated last => replaced (plain line present terminated last)⟩

/-- A text whose theme line stands already as it should is left as it is. -/
theorem ChangesOnlyTheme.eq_of_saved {toml : TomlLibrary} {name contents edited : String}
    {index : Nat} (changes : ChangesOnlyTheme toml name contents edited)
    (replaced : themeEdit (Lines.lines contents.toList) = .replace index)
    (saved : (Lines.rawLines contents.toList)[index]? = some (themeLine name)) :
    edited = contents := by
  obtain ⟨inside, here⟩ := List.getElem?_eq_some_iff.mp saved
  have lines : (Lines.rawLines contents.toList).set index (themeLine name) =
      Lines.rawLines contents.toList := by
    rw [← here, List.set_getElem_self]
  apply String.toList_injective
  rw [changes.2, replaced, ThemeEdit.apply, lines, Lines.joinLines_rawLines]

/-- Saving a theme changes the theme and nothing else exactly when it is refused, or every line but
the replaced one ends in a plain newline and the write is not cut off. -/
theorem saveThemeToConfigAt_iff (toml : TomlLibrary) (path name : String) (write : FileWrite)
    (file : Option (List UInt8)) :
    SavesOnlyTheme toml name file (saveThemeToConfigAt toml path name write file) ↔
      ∀ contents, isThemeName name = true → readToString file = .ok contents →
        Accepted toml name contents →
        match write with
        | .complete => PlainNewlines contents
        | .refused => True
        | .cut size => some ((Utf8.encode (editedText name contents).toList).take size) = file := by
  unfold saveThemeToConfigAt
  split
  · next refused =>
    refine iff_of_true rfl fun _ clean => ?_
    simp [clean] at refused
  next clean =>
  rw [Bool.not_eq_true, Bool.not_eq_false'] at clean
  cases read : readToString file with
  | error error => exact iff_of_true rfl nofun
  | ok contents =>
      dsimp only
      obtain ⟨accepted, edited⟩ | ⟨refused, error, failed⟩ :=
        editTheme_cases toml path name contents
      · simp only [edited]
        cases write with
        | complete =>
            have text : readToString (some (Utf8.encode (editedText name contents).toList)) =
                .ok (editedText name contents) := by
              simp only [readToString, Option.bind_some, Utf8.decode_encode, String.ofList_toList]
            refine ⟨fun saved other _ same _ => ?_, fun plain => ?_⟩
            · cases same
              obtain ⟨before, after, old, new, changes⟩ := saved
              cases read.symm.trans old
              cases text.symm.trans new
              exact (changesOnlyTheme_iff clean accepted).mp changes
            · exact ⟨contents, _, read, text,
                (changesOnlyTheme_iff clean accepted).mpr (plain _ clean rfl accepted)⟩
        | refused => exact iff_of_true rfl fun _ _ _ _ => trivial
        | cut size =>
            refine ⟨fun same other _ equal _ => ?_, fun same => same contents clean rfl accepted⟩
            cases equal
            exact same
      · simp only [failed]
        refine iff_of_true rfl ?_
        rintro _ _ ⟨⟩ accepted
        exact absurd accepted refused

/-- The library reads two texts: one line that ends in a carriage return and a
newline, and the same with a theme. -/
def twoTexts : TomlLibrary where
  parse text :=
    if text = "a = 1\r\n" then .ok [("a", .integer 1)]
    else if text = "a = 1\n\n[tui]\ntheme_color = \"blue\"\n" then
      .ok [("a", .integer 1), ("tui", .table [("theme_color", .string "blue")])]
    else .error "unexpected"
  debug text := "\"" ++ text ++ "\""

/-- The carriage return of an untouched line is lost, and a write that is
cut off leaves half a file. -/
theorem saveThemeToConfigAt_changes_lines :
    let file := some (Utf8.encode "a = 1\r\n".toList)
    ¬ SavesOnlyTheme twoTexts "blue" file
      (saveThemeToConfigAt twoTexts "config.toml" "blue" .complete file) ∧
      ¬ SavesOnlyTheme twoTexts "blue" file
          (saveThemeToConfigAt twoTexts "config.toml" "blue" (.cut 3) file) := by
  intro file
  have read : readToString file = .ok "a = 1\r\n" := rfl
  have edited : editTheme twoTexts "config.toml" "blue" "a = 1\r\n" =
    .ok "a = 1\n\n[tui]\ntheme_color = \"blue\"\n" := rfl
  constructor
  · have saved : saveThemeToConfigAt twoTexts "config.toml" "blue" .complete file =
        (.ok (), some (Utf8.encode "a = 1\n\n[tui]\ntheme_color = \"blue\"\n".toList)) := rfl
    rw [saved]
    rintro ⟨contents, text, old, new, -, lines⟩
    cases read.symm.trans old
    have same : text = "a = 1\n\n[tui]\ntheme_color = \"blue\"\n" := (Except.ok.inj new).symm
    rw [same] at lines
    exact absurd lines (by decide)
  · have cut : saveThemeToConfigAt twoTexts "config.toml" "blue" (.cut 3) file =
        (.error .ioError, some (Utf8.encode "a =".toList)) := rfl
    rw [cut]
    have shorter : some (Utf8.encode "a =".toList) ≠ file := by decide
    exact shorter

end Openheim.Config
