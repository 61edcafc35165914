import Openheim.Memory.SkillFiles

/-
This file shows which listed skills can be loaded, and where the content of a loaded skill stands.
-/

namespace Openheim.Memory
open Openheim.Tools

variable {fs : FileSystem} {readDir : ReadDir fs} {dir name text : String} {names : List String}
  {location root found : List FileName} {file : FileName} {limit : Nat}

/-- The text of a file can be read. -/
def Readable (fs : FileSystem) (location : List FileName) : Prop :=
  (readToString fs ⟨true, location⟩).isOk = true

/-- A regular file of the directory is read, and a link when it leads to a file
below the canonical directory. -/
def EntryLoads (fs : FileSystem) (dir : String) (location : List FileName)
    (file : FileName) : Prop :=
  fs.canonicalizeText dir = .ok ⟨true, location⟩ ∧
    match fs.node (location ++ [file]) with
    | some (.file _) => Readable fs (location ++ [file])
    | some (.link _ _) =>
        let path := joinPath dir (String.ofList file.val)
        existsText fs path = true ∧
          ∃ found, fs.canonicalizeText path = .ok ⟨true, found⟩ ∧ location <+: found ∧
            Readable fs found
    | _ => False

section Paths

/-- The steps to a child are those to its directory, but for a slash at the end, and the name. -/
theorem steps_joinPath (nonempty : dir.isEmpty = false) (file : FileName) :
    ∃ base tail, FileSystem.steps dir = base ++ tail ∧ (tail = [] ∨ tail = [.current]) ∧
      FileSystem.steps (joinPath dir (String.ofList file.val)) = base ++ [.entry file] := by
  obtain ⟨base, joined, same, -, -⟩ := joinPath_pieces nonempty file
  have entry : FileSystem.stepOfPiece file.val = some (.entry file) := by
    simp [FileSystem.stepOfPiece, file.2]
  have nothing : FileSystem.stepOfPiece [] = none := rfl
  have plain : some file.val ≠ some [] :=
    fun empty => (isFileName_iff.mp file.2).1 (Option.some.inj empty)
  refine ⟨base.filterMap FileSystem.stepOfPiece, if (dir.toList.splitOn '/').getLast? = some [] then
    [.current] else [], ?_, ?_, ?_⟩
  · rw [FileSystem.steps]
    rcases same with same | same
    · rw [same]
    · rw [same, List.filterMap_append, List.filterMap_cons, nothing, List.filterMap_nil,
        List.append_nil]
  · split
    · exact .inr rfl
    · exact .inl rfl
  · rw [FileSystem.steps, joined, List.getLast?_concat, if_neg plain, List.append_nil,
      List.filterMap_append, List.filterMap_cons, entry, List.filterMap_nil]

/-- A text that is located has no NUL, is not empty, and leads where its steps lead. -/
theorem locateText_ok (located : locateText fs limit dir = .ok location) :
    '\x00' ∉ dir.toList ∧ dir.isEmpty = false ∧
      fs.locate limit (Component.isAbsolute dir) (FileSystem.steps dir) = .ok location := by
  rw [locateText] at located
  split at located
  · cases located
  · next clean =>
    split at located
    · cases located
    · next some => exact ⟨clean, by simpa using some, located⟩

/-- The canonical path of a text is the place it is located at. -/
theorem canonicalizeText_eq (fs : FileSystem) (path : String) :
    fs.canonicalizeText path = (locateText fs fs.realpathLimit path).map fun location =>
      ⟨true, location⟩ := by
  rw [FileSystem.canonicalizeText, locateText]
  split
  · rfl
  · split <;> rfl

theorem canonicalizeText_iff {path : String} :
    fs.canonicalizeText path = .ok ⟨true, found⟩ ↔
      locateText fs fs.realpathLimit path = .ok found := by
  rw [canonicalizeText_eq]
  cases locateText fs fs.realpathLimit path with
  | error error => exact ⟨nofun, nofun⟩
  | ok location => simp [Except.map]

/-- Where a path leads does not depend on how many links may be followed. -/
theorem locateText_unique {other : Nat} {path : String}
    (one : locateText fs limit path = .ok location)
    (two : locateText fs other path = .ok found) : location = found := by
  obtain ⟨-, -, first⟩ := locateText_ok one
  obtain ⟨-, -, second⟩ := locateText_ok two
  obtain ⟨_, leads⟩ := FileSystem.locate_ok first
  obtain ⟨_, again⟩ := FileSystem.locate_ok second
  exact FileTree.lookup_unique leads again

/-- What a text locates has no link above it. -/
theorem locateText_real {path : String} (located : locateText fs limit path = .ok location) :
    fs.Real location :=
  FileSystem.locate_real (locateText_ok located).2.2

/-- A slash at the end of a path leads no further. -/
theorem lookup_tail {steps tail : List (PathStep FileName)} {start : List FileName} {left : Nat}
    (leads : fs.lookup limit start (steps ++ tail) = .found location left)
    (ends : tail = [] ∨ tail = [.current]) :
    fs.lookup limit start steps = .found location left := by
  rcases ends with rfl | rfl
  · rw [List.append_nil] at leads
    exact leads
  · rw [FileTree.lookup_append] at leads
    cases result : fs.lookup limit start steps with
    | found middle rest =>
        rw [result] at leads
        dsimp only at leads
        rw [FileTree.lookup.eq_def, FileTree.advance_cons] at leads
        split at leads
        · next arrived =>
          split at arrived
          · cases arrived
            exact leads
          · cases arrived
        · cases leads
        · cases leads
        · next linked =>
          split at linked <;> cases linked
    | absent directory name => rw [result] at leads; cases leads
    | failed error => rw [result] at leads; cases leads

/-- An entry that is no link is found where it stands. -/
theorem locateText_child (located : locateText fs limit dir = .ok location)
    (clean : '\x00' ∉ file.val) (real : fs.Real (location ++ [file])) :
    locateText fs limit (joinPath dir (String.ofList file.val)) = .ok (location ++ [file]) := by
  obtain ⟨plain, nonempty, found⟩ := locateText_ok located
  obtain ⟨left, leads⟩ := FileSystem.locate_ok found
  obtain ⟨base, tail, steps, ends, joined⟩ := steps_joinPath nonempty file
  obtain ⟨-, -, -, -, absolute⟩ := joinPath_pieces nonempty file
  rw [steps] at leads
  have arrived : fs.advance location [.entry file] = .arrived (location ++ [file]) :=
    FileTree.advance_entries real
  have child : fs.lookup limit (fs.startOf (Component.isAbsolute dir)) (base ++ [.entry file]) =
      .found (location ++ [file]) left := by
    rw [FileTree.lookup_append, lookup_tail leads ends]
    exact FileTree.lookup_of_arrived arrived left
  have nul : '\x00' ∉ (joinPath dir (String.ofList file.val)).toList := by
    rw [joinPath]
    split
    · simpa using clean
    · split
      · simpa using ⟨plain, clean⟩
      · simpa using ⟨plain, clean⟩
  have some : (joinPath dir (String.ofList file.val)).isEmpty = false := by
    by_contra empty
    have nothing : joinPath dir (String.ofList file.val) = "" := by simpa using empty
    have last := congrArg List.getLast? joined
    rw [nothing, List.getLast?_concat] at last
    cases last
  rw [locateText, if_neg nul, some, if_neg Bool.false_ne_true, absolute, joined,
    FileSystem.locate, child]

end Paths

section Reading

/-- A path without links is opened where it stands. -/
theorem openRead_real (real : fs.Real location)
    (opened : fs.openRead ⟨true, location⟩ = .ok found) :
    found = location := by
  obtain ⟨-, located⟩ := FileSystem.follow_ok opened
  obtain ⟨left, leads⟩ := FileSystem.locate_ok located
  have arrived : fs.advance [] (location.map .entry) = .arrived location :=
    FileTree.advance_entries real
  exact FileTree.lookup_unique leads (FileTree.lookup_of_arrived arrived fs.linkLimit)

/-- What is read of a real place is the text of the file there. -/
theorem readToString_ok (real : fs.Real location)
    (loaded : readToString fs ⟨true, location⟩ = .ok text) :
    ∃ content, fs.node location = some (.file content) ∧
      Utf8.decode content = some text.toList := by
  rw [readToString] at loaded
  split at loaded
  · cases loaded
  · next place opened =>
    obtain rfl := openRead_real real opened
    split at loaded
    · next content stands =>
      refine ⟨content, stands, ?_⟩
      cases decoded : Utf8.decode content with
      | none => rw [decoded] at loaded; cases loaded
      | some chars =>
          rw [decoded] at loaded
          cases loaded
          rw [String.toList_ofList]
    · cases loaded

end Reading

section Loading

/-- What a skill that was loaded went through. -/
theorem loadSkill_ok (loaded : loadSkill fs dir name = .ok text) :
    validateSkillName name = .ok () ∧ existsText fs (skillPath dir name) = true ∧
      ∃ root found, fs.canonicalizeText dir = .ok ⟨true, root⟩ ∧
        fs.canonicalizeText (skillPath dir name) = .ok ⟨true, found⟩ ∧ root <+: found ∧
          readToString fs ⟨true, found⟩ = .ok text := by
  rw [loadSkill] at loaded
  split at loaded
  · cases loaded
  · next valid =>
    dsimp only at loaded
    split at loaded
    · cases loaded
    · next stands =>
      refine ⟨valid, by simpa using stands, ?_⟩
      split at loaded
      · next top target first second =>
        obtain ⟨root, rfl, -⟩ := FileSystem.canonicalizeText_ok first
        obtain ⟨found, rfl, -⟩ := FileSystem.canonicalizeText_ok second
        split at loaded
        · cases loaded
        · next inside =>
          exact ⟨root, found, first, second, startsWith_iff.mp (by simpa using inside), loaded⟩
      · cases loaded

/-- A skill is loaded when its path leads below the canonical directory. -/
theorem loadSkill_of_inside (valid : validateSkillName name = .ok ())
    (stands : existsText fs (skillPath dir name) = true)
    (top : fs.canonicalizeText dir = .ok ⟨true, root⟩)
    (target : fs.canonicalizeText (skillPath dir name) = .ok ⟨true, found⟩)
    (below : root <+: found) :
    loadSkill fs dir name = readToString fs ⟨true, found⟩ := by
  rw [loadSkill, valid]
  simp only [stands, top, target, startsWith_iff.mpr below, Bool.not_true,
    Bool.false_eq_true, if_false]

/-- The content of a loaded skill stands in a file below the canonical directory. -/
theorem loadSkill_inside (loaded : loadSkill fs dir name = .ok text) :
    ∃ root location content, fs.canonicalizeText dir = .ok ⟨true, root⟩ ∧ root <+: location ∧
      fs.node location = some (.file content) ∧ Utf8.decode content = some text.toList := by
  obtain ⟨-, -, root, found, top, target, below, read⟩ := loadSkill_ok loaded
  have real := locateText_real (canonicalizeText_iff.mp target)
  obtain ⟨content, stands, decoded⟩ := readToString_ok real read
  exact ⟨root, found, content, top, below, stands, decoded⟩

end Loading

section Listing

/-- The stem and the extension make up the name. -/
theorem splitExtension_some {entry stem extension : List Char}
    (split : splitExtension entry = (stem, some extension)) :
    entry = stem ++ '.' :: extension := by
  rw [splitExtension] at split
  split at split
  · cases split
  · next dotted =>
    rw [not_or, not_not] at dotted
    obtain ⟨rfl, same⟩ := Prod.mk.inj split
    obtain rfl := Option.some.inj same
    have nonempty : entry.rdropWhile (fun char => char ≠ '.') ≠ [] := by
      intro empty
      exact dotted.2 (by rw [empty]; rfl)
    have last := List.rdropWhile_last_not _ _ nonempty
    have dot : (entry.rdropWhile (fun char => char ≠ '.')).getLast nonempty = '.' := by
      simpa using last
    have whole : entry.rdropWhile (fun char => char ≠ '.') ++ entry.rtakeWhile
        (fun char => char ≠ '.') = entry :=
      List.rdropWhile_append_rtakeWhile
    rw [← List.dropLast_append_getLast nonempty, dot, List.append_assoc,
      List.singleton_append] at whole
    exact whole.symm

/-- A file that names a skill has its name and the ending. -/
theorem skillName_some {entry : FileName} (named : skillName entry = some name) :
    entry.val = name.toList ++ ['.', 'm', 'd'] ∧ validateSkillName name = .ok () := by
  rw [skillName] at named
  cases parts : splitExtension entry.val with
  | mk stem extension =>
      rw [parts] at named
      dsimp only at named
      split at named
      · next valid =>
        obtain rfl := Option.some.inj named
        obtain ⟨rfl, accepted⟩ := valid
        rw [String.toList_ofList]
        refine ⟨splitExtension_some parts, ?_⟩
        cases outcome : validateSkillName (String.ofList stem) with
        | error error => rw [outcome] at accepted; cases accepted
        | ok => rfl
      · cases named

/-- A listing names entries of the directory, whose names are accepted. -/
theorem listSkills_ok (listed : listSkills fs readDir dir = .ok names) :
    ∃ location, locateText fs fs.linkLimit dir = .ok location ∧ fs.node location = some .directory ∧
      ∀ name ∈ names, ∃ file : FileName, file.val = name.toList ++ ['.', 'm', 'd'] ∧
        validateSkillName name = .ok () ∧ (fs.node (location ++ [file])).isSome = true := by
  rw [listSkills] at listed
  split at listed
  · cases listed
  · next location located =>
    split at listed
    · next directory =>
      cases listed
      refine ⟨location, located, directory, fun name member => ?_⟩
      obtain ⟨file, among, named⟩ := List.mem_filterMap.mp ((List.mem_insertionSort _).mp member)
      obtain ⟨same, valid⟩ := skillName_some named
      exact ⟨file, same, valid, (readDir.complete location file).mp among⟩
    · cases listed

/-- The path of a skill is that of its file. -/
theorem skillPath_eq (same : file.val = name.toList ++ ['.', 'm', 'd']) :
    skillPath dir name = joinPath dir (String.ofList file.val) := by
  rw [skillPath, same, String.ofList_append, String.ofList_toList]

/-- What is located exists. -/
theorem existsText_of_located {path : String}
    (located : locateText fs fs.linkLimit path = .ok location) :
    existsText fs path = true := by
  rw [existsText, located]
  rfl

/-- An accepted name has no NUL. -/
theorem nul_not_mem_accepted (valid : validateSkillName name = .ok ()) : '\x00' ∉ name.toList := by
  rw [validateSkillName] at valid
  split at valid
  · cases valid
  · next clean =>
    simp only [Bool.or_eq_true, decide_eq_true_eq, not_or] at clean
    exact clean.2

/-- A place can be read when reading it gives a text. -/
theorem readable_iff : Readable fs found ↔ ∃ text, readToString fs ⟨true, found⟩ = .ok text := by
  rw [Readable]
  cases readToString fs ⟨true, found⟩ with
  | error error => exact ⟨nofun, nofun⟩
  | ok text => exact ⟨fun _ => ⟨text, rfl⟩, fun _ => rfl⟩

theorem nul_not_mem_file (same : file.val = name.toList ++ ['.', 'm', 'd'])
    (valid : validateSkillName name = .ok ()) :
    '\x00' ∉ file.val := by
  rw [same]
  simpa using nul_not_mem_accepted valid

/-- A file has no link above it. -/
theorem real_of_file {content : List UInt8} (entry : fs.node found = some (.file content)) :
    fs.Real found :=
  ⟨_, entry, fun _ _ => by simp⟩

/-- The entry of a loaded skill can be read. -/
theorem entryLoads_of_loaded (located : locateText fs fs.linkLimit dir = .ok location)
    (same : file.val = name.toList ++ ['.', 'm', 'd'])
    (valid : validateSkillName name = .ok ())
    (stands : (fs.node (location ++ [file])).isSome = true)
    (loaded : loadSkill fs dir name = .ok text) : EntryLoads fs dir location file := by
  obtain ⟨-, stood, root, found, top, target, below, read⟩ := loadSkill_ok loaded
  obtain rfl : location = root := locateText_unique located (canonicalizeText_iff.mp top)
  have reached := canonicalizeText_iff.mp target
  rw [skillPath_eq same] at stood target reached
  refine ⟨top, ?_⟩
  -- an entry that is no link is its own target
  have child (real : fs.Real (location ++ [file])) : found = location ++ [file] :=
    locateText_unique reached (locateText_child (canonicalizeText_iff.mp top)
      (nul_not_mem_file same valid) real)
  cases entry : fs.node (location ++ [file]) with
  | none => rw [entry] at stands; cases stands
  | some node =>
      cases node with
      | link absolute steps => exact ⟨stood, found, target, below, readable_iff.mpr ⟨text, read⟩⟩
      | directory =>
          have real : fs.Real (location ++ [file]) := .directory entry
          obtain rfl := child real
          obtain ⟨content, is_file, -⟩ := readToString_ok real read
          rw [entry] at is_file
          cases is_file
      | file content =>
          obtain rfl := child (real_of_file entry)
          exact readable_iff.mpr ⟨text, read⟩

/-- An entry that can be read is loaded under its name. -/
theorem loaded_of_entryLoads (located : locateText fs fs.linkLimit dir = .ok location)
    (same : file.val = name.toList ++ ['.', 'm', 'd'])
    (valid : validateSkillName name = .ok ()) (entryLoads : EntryLoads fs dir location file) :
    ∃ text, loadSkill fs dir name = .ok text := by
  obtain ⟨top, loads⟩ := entryLoads
  cases entry : fs.node (location ++ [file]) with
  | none => rw [entry] at loads; cases loads
  | some node =>
      rw [entry] at loads
      cases node with
      | directory => cases loads
      | link absolute steps =>
          obtain ⟨stood, found, target, below, readable⟩ := loads
          rw [← skillPath_eq same] at stood target
          rw [loadSkill_of_inside valid stood top target below]
          exact readable_iff.mp readable
      | file content =>
          have clean := nul_not_mem_file same valid
          have real := real_of_file entry
          have stood := existsText_of_located (locateText_child located clean real)
          have target :=
            canonicalizeText_iff.mpr (locateText_child (canonicalizeText_iff.mp top) clean real)
          rw [← skillPath_eq same] at stood target
          rw [loadSkill_of_inside valid stood top target (List.prefix_append _ _)]
          exact readable_iff.mp loads

/-- A name of the listing is loaded exactly when its entry can be. -/
theorem loads_iff (located : locateText fs fs.linkLimit dir = .ok location)
    (same : file.val = name.toList ++ ['.', 'm', 'd'])
    (valid : validateSkillName name = .ok ())
    (stands : (fs.node (location ++ [file])).isSome = true) :
    (∃ text, loadSkill fs dir name = .ok text) ↔ EntryLoads fs dir location file := by
  constructor
  · rintro ⟨text, loaded⟩
    exact entryLoads_of_loaded located same valid stands loaded
  · exact loaded_of_entryLoads located same valid

end Listing

section Correspondence

/-- An accepted name names a file of the directory unless it goes on after its first
component, a listed name is loaded exactly when its entry can be, and a loaded skill stands
below the canonical directory. -/
theorem skills_correspond (fs : FileSystem) (readDir : ReadDir fs) (dir : String) :
    (∀ name, validateSkillName name = .ok () → (NamesChild name ↔ ¬ TrailingSeparator name)) ∧
    (∀ names, listSkills fs readDir dir = .ok names →
      ∃ location, locateText fs fs.linkLimit dir = .ok location ∧
        fs.node location = some .directory ∧
        ∀ name ∈ names, ∃ file : FileName, file.val = name.toList ++ ['.', 'm', 'd'] ∧
          (fs.node (location ++ [file])).isSome = true ∧
            ((∃ text, loadSkill fs dir name = .ok text) ↔ EntryLoads fs dir location file)) ∧
    (∀ name text, loadSkill fs dir name = .ok text →
      ∃ root location content, fs.canonicalizeText dir = .ok ⟨true, root⟩ ∧ root <+: location ∧
        fs.node location = some (.file content) ∧ Utf8.decode content = some text.toList) := by
  refine ⟨fun name accepted => namesChild_iff accepted, fun names listed => ?_,
    fun name text loaded => ?_⟩
  · obtain ⟨location, located, directory, named⟩ := listSkills_ok listed
    refine ⟨location, located, directory, fun name member => ?_⟩
    obtain ⟨file, same, valid, stands⟩ := named name member
    exact ⟨file, same, stands, loads_iff located same valid stands⟩
  · exact loadSkill_inside loaded

def skillsDirectory : FileName := ⟨['s'], rfl⟩

def outsideFile : FileName := ⟨['o'], rfl⟩

def linkFile : FileName := ⟨['l', '.', 'm', 'd'], rfl⟩

/-- A directory of skills with a link in it that leads to a file outside. -/
def escapingSystem : FileSystem :=
  { ((FileTree.rootOnly.insert [skillsDirectory] .directory (by decide) (by decide)).insert
      [outsideFile] (.file [120])
      (by decide) (by decide)).insert [skillsDirectory, linkFile]
        (.link false [.parent, .entry outsideFile])
        (by decide) (by decide) with
    processDir := [], processDir_directory := rfl, linkLimit := 40, realpathLimit := 40 }

/-- The listing of the system. -/
def escapingListing : ReadDir escapingSystem where
  entries location :=
    if location = [] then [skillsDirectory, outsideFile] else if location = [skillsDirectory] then
      [linkFile] else []
  complete location name := by
    have node : escapingSystem.node (location ++ [name]) =
        if location ++ [name] = [skillsDirectory] ++ [linkFile] then
          some (.link false [.parent, .entry outsideFile])
        else if location ++ [name] = [] ++ [outsideFile] then some (.file [120])
        else if location ++ [name] = [] ++ [skillsDirectory] then some .directory
        else if location ++ [name] = [] then some .directory else none := rfl
    rw [node]
    simp only [List.append_singleton_inj]
    by_cases top : location = []
    · have apart : skillsDirectory ≠ outsideFile := by decide
      by_cases outside : name = outsideFile <;> by_cases skills : name = skillsDirectory <;>
        simp [top, outside, skills, apart]
    · by_cases inner : location = [skillsDirectory] <;>
        by_cases link : name = linkFile <;> simp [top, inner, link]

/-- A name with a slash at its end is accepted, and the name of a link to a file
outside is listed but not loaded. -/
theorem skills_correspond_fails :
    (validateSkillName "rust/" = .ok () ∧ ¬ NamesChild "rust/") ∧
      listSkills escapingSystem escapingListing "/s" = .ok ["l"] ∧
        loadSkill escapingSystem "/s" "l" =
          .error (.notFound "Skill 'l' resolves outside the skills directory") ∧
          readToString escapingSystem ⟨true, [outsideFile]⟩ = .ok "x" :=
  ⟨⟨rfl, fun child => child.1 (by decide)⟩, rfl, rfl, rfl⟩

end Correspondence

end Openheim.Memory
