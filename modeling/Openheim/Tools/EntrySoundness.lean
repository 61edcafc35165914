import Openheim.Tools.Entries

/-
This file proves that a validated entry lies strictly below the work directory, and that deletions
and renames change nothing else.
-/

namespace Openheim.Tools

/-- A location below another one, and not that one. -/
def StrictlyBelow (root location : List FileName) : Prop := root <+: location ∧ location ≠ root

theorem StrictlyBelow.trans {root location other : List FileName}
    (below : StrictlyBelow root location) (inside : location <+: other) :
    StrictlyBelow root other := by
  refine ⟨below.1.trans inside, ?_⟩
  rintro rfl
  exact below.2 (inside.eq_of_length (Nat.le_antisymm inside.length_le below.1.length_le))

namespace FileSystem
variable {fs : FileSystem} {above directory location root : List FileName} {name : FileName}
  {path : PathBuf}

/-- The directory of an entry is what opening the path above it leads to. -/
theorem parentOf_opened (looked : fs.parentOf ⟨true, above ++ [name]⟩ = .ok directory) :
    fs.openRead ⟨true, above⟩ = .ok directory := by
  obtain ⟨clean, _, left, leads⟩ := parentOf_ok looked
  rw [PathBuf.hasNul, List.any_append, Bool.or_eq_false_iff] at clean
  rw [walk] at leads
  simp [openRead, follow, PathBuf.hasNul, clean.1, PathBuf.isEmpty, locate, startOf, leads]

/-- The entry of a path is looked for in the directory that the path above it leads to. -/
theorem entryOf_opened (opened : fs.openRead ⟨true, above⟩ = .ok directory)
    (is_directory : fs.node directory = some .directory) (clean : '\x00' ∉ name.val) :
    fs.entryOf ⟨true, above ++ [name]⟩ = .ok (directory ++ [name]) := by
  obtain ⟨above_clean, left, leads⟩ := openRead_iff.mp opened
  have whole : (⟨true, above ++ [name]⟩ : PathBuf).hasNul = false := by
    rw [PathBuf.hasNul] at above_clean
    simp [PathBuf.hasNul, List.any_append, above_clean, clean]
  rw [walk] at leads
  simp [entryOf, PathBuf.fileName, parentOf, whole, locate, startOf, leads, is_directory,
    Except.map]

/-- The entry of a path has the last name of the path. -/
theorem entryOf_ok (found : fs.entryOf ⟨true, above ++ [name]⟩ = .ok location) :
    ∃ directory, fs.parentOf ⟨true, above ++ [name]⟩ = .ok directory ∧
      location = directory ++ [name] := by
  rw [entryOf, PathBuf.fileName, List.getLast?_concat] at found
  cases looked : fs.parentOf ⟨true, above ++ [name]⟩ with
  | error error =>
      rw [looked] at found
      cases found
  | ok directory =>
      rw [looked] at found
      cases found
      exact ⟨directory, rfl, rfl⟩

theorem strictlyBelow_concat (inside : root <+: directory) (name : FileName) :
    StrictlyBelow root (directory ++ [name]) := by
  refine ⟨inside.trans (List.prefix_append directory [name]), fun same => ?_⟩
  have shorter := inside.length_le
  rw [← same, List.length_append, List.length_singleton] at shorter
  omega

/-- What changes in a tree lies strictly below a location. -/
def ChangesBelow (fs : FileSystem) (root : List FileName) (after : Tree) : Prop :=
  ∀ location, after.node location ≠ fs.node location → StrictlyBelow root location

theorem changesBelow_same (fs : FileSystem) (root : List FileName) :
    ChangesBelow fs root fs.toFileTree :=
  fun _ changed => absurd rfl changed

theorem removeAt_below (below : StrictlyBelow root location) {after : Tree}
    (removed : fs.removeAt location = .ok after) :
    ChangesBelow fs root after := by
  rw [removeAt] at removed
  split at removed
  · cases removed
    intro other changed
    by_contra apart
    exact changed (FileTree.remove_node _ fun inside => apart (below.trans inside))
  · cases removed

theorem moveAt_below {source target : List FileName} (leaves : StrictlyBelow root source)
    (arrives : StrictlyBelow root target) {after : Tree}
    (moved : fs.moveAt source target = .ok after) :
    ChangesBelow fs root after := by
  rw [moveAt] at moved
  split at moved
  · cases moved
    intro other changed
    by_contra apart
    exact changed (FileTree.move_node _ (fun inside => apart (leaves.trans inside))
      fun inside => apart (arrives.trans inside))
  · cases moved

end FileSystem

/-- A path names an entry strictly below a location, and it is the one that was requested: what is
above the entry leads there, the last name is kept, and a link in its place is not followed. -/
structure NamesEntryBelow (fs : FileSystem) (root : List FileName)
    (requested path : PathBuf) : Prop where
  above : ∃ parent, path.parent = some parent ∧ Confined fs root parent
  below : ∀ location, fs.entryOf path = .ok location → StrictlyBelow root location
  named : path.fileName = requested.fileName
  unfollowed : ∀ location, fs.entryOf path = .ok location → fs.entryOf requested = .ok location

section Requests
variable {fs : FileSystem} {root : List FileName} {path : PathBuf} {workDir : String}

/-- The accepted path leads nowhere but where the checked one leads. -/
theorem checkInside_opened {names location : List FileName} {requested : String}
    (accepted : checkInside fs ⟨true, names⟩ requested workDir ⟨true, root⟩ = .ok path)
    (opened : fs.openRead path = .ok location) : fs.openRead ⟨true, names⟩ = .ok location := by
  rcases checkInside_cases accepted with ⟨canonical, resolved, stands, rfl, real, _⟩ | ⟨rfl, _⟩
  · obtain ⟨clean, found, left, leads⟩ := FileSystem.pathExists_iff.mp stands
    obtain ⟨_, same, _, followed⟩ := FileSystem.canonicalize_ok resolved
    cases same
    obtain ⟨_, again⟩ := FileSystem.locate_ok (FileSystem.follow_ok followed).2
    obtain rfl : found = canonical := FileTree.lookup_unique leads again
    obtain ⟨_, _, own⟩ := FileSystem.openRead_iff.mp opened
    rw [FileSystem.walk_real real, Lookup.found.injEq] at own
    exact FileSystem.openRead_iff.mpr ⟨clean, left, own.1 ▸ leads⟩
  · exact opened

/-- The entry in the accepted directory is the requested one. -/
theorem namesEntryBelow_join {names : List FileName} {name : FileName} {parent : PathBuf}
    (absolute : parent.absolute = true) (confined : Confined fs root parent)
    (leads : ∀ location, fs.openRead parent = .ok location →
      fs.openRead ⟨true, names⟩ = .ok location) :
    NamesEntryBelow fs root ⟨true, names ++ [name]⟩ (parent.join name) := by
  obtain ⟨_, above⟩ := parent
  obtain rfl := absolute
  refine ⟨⟨⟨true, above⟩, ?_, confined⟩, fun location found => ?_, ?_, fun location found => ?_⟩
  · simp [PathBuf.join, PathBuf.parent]
  · obtain ⟨directory, looked, rfl⟩ := FileSystem.entryOf_ok found
    exact FileSystem.strictlyBelow_concat
      (confined.opened directory (FileSystem.parentOf_opened looked)) name
  · rw [PathBuf.join, PathBuf.fileName, PathBuf.fileName, List.getLast?_concat,
      List.getLast?_concat]
  · obtain ⟨directory, looked, rfl⟩ := FileSystem.entryOf_ok found
    obtain ⟨clean, is_directory, _, _⟩ := FileSystem.parentOf_ok looked
    rw [PathBuf.hasNul, List.any_append, Bool.or_eq_false_iff] at clean
    refine FileSystem.entryOf_opened (leads directory (FileSystem.parentOf_opened looked))
      is_directory ?_
    simpa using clean.2

theorem validateEntry_ok {requested : String}
    (accepted : validateEntry fs requested workDir = .ok path) :
    ∃ root, fs.canonicalizeText workDir = .ok ⟨true, root⟩ ∧
      NamesEntryBelow fs root (resolve requested ⟨true, root⟩) path := by
  rw [validateEntry] at accepted
  cases work : canonicalDir fs workDir with
  | error error =>
      rw [work] at accepted
      cases accepted
  | ok workDirCanonical =>
      rw [work] at accepted
      obtain ⟨root, rfl, _⟩ := FileSystem.canonicalizeText_ok (canonicalDir_ok work)
      obtain ⟨names, normalized⟩ :=
        resolve_absolute requested (show (⟨true, root⟩ : PathBuf).absolute = true from rfl)
      dsimp only at accepted
      rw [normalized] at accepted
      split at accepted
      · next parent name above last notRoot =>
        obtain ⟨_, above⟩ := Option.ite_none_left_eq_some.mp above
        cases above
        obtain ⟨directories, rfl⟩ : ∃ directories, names = directories ++ [name] :=
          List.getLast?_eq_some_iff.mp last
        rw [List.dropLast_concat] at accepted
        cases inside : checkInside fs ⟨true, directories⟩ requested workDir ⟨true, root⟩ with
        | error error =>
            rw [inside] at accepted
            cases accepted
        | ok parent =>
            rw [inside] at accepted
            cases accepted
            obtain ⟨absolute, confined⟩ := checkInside_confined inside
            refine ⟨root, canonicalDir_ok work, ?_⟩
            rw [normalized]
            exact namesEntryBelow_join absolute confined fun location opened =>
              checkInside_opened inside opened
      · cases accepted

theorem removeFile_below {after : Tree} {requested : PathBuf}
    (named : NamesEntryBelow fs root requested path)
    (removed : fs.removeFile path = .ok after) : fs.ChangesBelow root after := by
  rw [FileSystem.removeFile] at removed
  cases found : fs.entryOf path with
  | error error =>
      rw [found] at removed
      cases removed
  | ok location =>
      rw [found] at removed
      dsimp only at removed
      split at removed
      · cases removed
      · cases removed
      · exact FileSystem.removeAt_below (named.below location found) removed

theorem removeDirAll_below {after : Tree} {requested : PathBuf}
    (named : NamesEntryBelow fs root requested path)
    (removed : fs.removeDirAll path = .ok after) : fs.ChangesBelow root after := by
  rw [FileSystem.removeDirAll] at removed
  cases found : fs.entryOf path with
  | error error =>
      rw [found] at removed
      cases removed
  | ok location =>
      rw [found] at removed
      dsimp only at removed
      split at removed
      · cases removed
      · cases removed
      · exact FileSystem.removeAt_below (named.below location found) removed

theorem rename_below {after : Tree} {source target requested : PathBuf}
    {isEmptyDir : List FileName → Bool}
    (leaves : NamesEntryBelow fs root source path)
    (arrives : NamesEntryBelow fs root requested target)
    (renamed : fs.rename isEmptyDir path target = .ok after) : fs.ChangesBelow root after := by
  rw [FileSystem.rename] at renamed
  cases found : fs.entryOf path with
  | error error =>
      rw [found] at renamed
      cases renamed
  | ok source =>
      cases goal : fs.entryOf target with
      | error error =>
          rw [found, goal] at renamed
          cases renamed
      | ok goalLocation =>
          rw [found, goal] at renamed
          have moved :=
            fun made => @FileSystem.moveAt_below fs root source goalLocation
              (leaves.below source found)
            (arrives.below goalLocation goal) after made
          dsimp only at renamed
          split at renamed
          · cases renamed
          · split at renamed
            · cases renamed
              exact FileSystem.changesBelow_same fs root
            · split at renamed
              · exact moved renamed
              · cases renamed
          · cases renamed
          · cases renamed
          · split at renamed
            · cases renamed
              exact FileSystem.changesBelow_same fs root
            · exact moved renamed

/-- Two entries validated for one work directory lie below the same location. -/
theorem tryHandle_below (isEmptyDir : List FileName → Bool) (request : FsRequest) :
    (tryHandle fs isEmptyDir workDir request).1 = fs.toFileTree ∨
      ∃ root, fs.canonicalizeText workDir = .ok ⟨true, root⟩ ∧
        fs.ChangesBelow root (tryHandle fs isEmptyDir workDir request).1 := by
  cases request with
  | delete requested =>
      rw [tryHandle]
      cases validated : validateEntry fs requested workDir with
      | error error => exact .inl rfl
      | ok path =>
          obtain ⟨root, canonical, named⟩ := validateEntry_ok validated
          dsimp only
          split
          · exact .inl rfl
          · cases removed : fs.removeDirAll path with
            | error error => exact .inl rfl
            | ok after => exact .inr ⟨root, canonical, removeDirAll_below named removed⟩
          · cases removed : fs.removeFile path with
            | error error => exact .inl rfl
            | ok after => exact .inr ⟨root, canonical, removeFile_below named removed⟩
  | rename fromPath toPath =>
      rw [tryHandle]
      cases leaves : validateEntry fs fromPath workDir with
      | error error => exact .inl rfl
      | ok source =>
          cases arrives : validateEntry fs toPath workDir with
          | error error => exact .inl rfl
          | ok target =>
              obtain ⟨root, canonical, namesSource⟩ := validateEntry_ok leaves
              obtain ⟨other, again, namesTarget⟩ := validateEntry_ok arrives
              rw [canonical] at again
              cases again
              dsimp only
              cases renamed : fs.rename isEmptyDir source target with
              | error error => exact .inl rfl
              | ok after =>
                exact .inr ⟨root, canonical, rename_below namesSource namesTarget renamed⟩

end Requests

/-- A validated entry is the requested one and lies strictly below the work directory, and what a
deletion or renaming changes does too. -/
theorem entries_below (fs : FileSystem) (isEmptyDir : List FileName → Bool) (workDir : String) :
    (∀ requested path, validateEntry fs requested workDir = .ok path →
      ∃ root, fs.canonicalizeText workDir = .ok ⟨true, root⟩ ∧
        NamesEntryBelow fs root (resolve requested ⟨true, root⟩) path) ∧
    ∀ request location,
      (tryHandle fs isEmptyDir workDir request).1.node location ≠ fs.node location →
        ∃ root, fs.canonicalizeText workDir = .ok ⟨true, root⟩ ∧ StrictlyBelow root location := by
  refine ⟨fun requested path accepted => validateEntry_ok accepted,
    fun request location changed => ?_⟩
  rcases tryHandle_below isEmptyDir request with same | ⟨root, canonical, below⟩
  · rw [same] at changed
    exact absurd rfl changed
  · exact ⟨root, canonical, below location changed⟩

section Sample

/-- The work directory is refused however it is spelled. -/
example : (validateEntry sampleSystem "d/./../" "/w").isOk = false := rfl

/-- The link is named, not the directory that it leads to. -/
theorem entries_below_sample :
    ∃ root, sampleSystem.canonicalizeText "/w" = .ok ⟨true, root⟩ ∧
      NamesEntryBelow sampleSystem root (resolve "d/.././l/" ⟨true, root⟩) ⟨true,
          [workName, linkName]⟩ := by
  have accepted : validateEntry sampleSystem "d/.././l/" "/w" = .ok ⟨true, [workName, linkName]⟩ :=
    rfl
  exact (entries_below sampleSystem (fun _ => false) "/w").1 _ _ accepted

end Sample

end Openheim.Tools
