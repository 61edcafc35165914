import Openheim.Tools.Sandbox

namespace Openheim.Tools

namespace FileSystem
variable {fs after : FileSystem} {names first second above : List FileName} {name : FileName}
  {location directory found : List FileName} {left limit : Nat}

/-- The lookup of an absolute path by the kernel. -/
def walk (fs : FileSystem) (names : List FileName) : Lookup FileName :=
  fs.lookup fs.linkLimit [] (names.map .entry)

/-- A path starts at a real directory. -/
theorem startOf_real (fs : FileSystem) (absolute : Bool) : fs.Real (fs.startOf absolute) := by
  cases absolute with
  | true => exact .directory fs.root
  | false => exact .directory fs.processDir_directory

/-- What is located is what the lookup finds. -/
theorem locate_ok {absolute : Bool} {steps : List (PathStep FileName)}
    (located : fs.locate limit absolute steps = .ok found) :
    ∃ left, fs.lookup limit (fs.startOf absolute) steps = .found found left := by
  rw [locate] at located
  cases result : fs.lookup limit (fs.startOf absolute) steps with
  | found location left =>
      rw [result] at located
      cases located
      exact ⟨left, rfl⟩
  | absent directory name => rw [result] at located; cases located
  | failed error => rw [result] at located; cases located

/-- What is located has no link above it. -/
theorem locate_real {absolute : Bool} {steps : List (PathStep FileName)}
    (located : fs.locate limit absolute steps = .ok found) : fs.Real found := by
  obtain ⟨left, leads⟩ := locate_ok located
  exact FileTree.lookup_real (fs.startOf_real absolute) leads

/-- Following a path looks up its names. -/
theorem follow_ok {path : PathBuf} (followed : fs.follow limit path = .ok found) :
    path.hasNul = false ∧ fs.locate limit path.absolute (path.names.map .entry) = .ok found := by
  rw [follow] at followed
  split at followed
  · cases followed
  · next clean =>
    split at followed
    · cases followed
    · exact ⟨by simpa using clean, followed⟩

/-- A canonical path is absolute, real and leads where the path leads. -/
theorem canonicalize_ok {path canonical : PathBuf}
    (resolved : fs.canonicalize path = .ok canonical) :
    ∃ location, canonical = ⟨true, location⟩ ∧ fs.Real location ∧
      fs.follow fs.realpathLimit path = .ok location := by
  rw [canonicalize] at resolved
  cases followed : fs.follow fs.realpathLimit path with
  | error error => rw [followed] at resolved; cases resolved
  | ok location =>
      rw [followed] at resolved
      cases resolved
      exact ⟨location, rfl, locate_real (follow_ok followed).2, rfl⟩

/-- A canonical path of a text is absolute and real. -/
theorem canonicalizeText_ok {path : String} {canonical : PathBuf}
    (resolved : fs.canonicalizeText path = .ok canonical) :
    ∃ location, canonical = ⟨true, location⟩ ∧ fs.Real location := by
  rw [canonicalizeText] at resolved
  split at resolved
  · cases resolved
  · split at resolved
    · cases resolved
    · cases located : fs.locate fs.realpathLimit (Component.isAbsolute path) (steps path) with
      | error error => rw [located] at resolved; cases resolved
      | ok location =>
          rw [located] at resolved
          cases resolved
          exact ⟨location, rfl, locate_real located⟩

/-- An absolute path exists when no name has a zero character and the kernel gets somewhere. -/
theorem pathExists_iff : fs.pathExists ⟨true, names⟩ = true ↔
    (⟨true, names⟩ : PathBuf).hasNul = false ∧ ∃ found left, fs.walk names = .found found left := by
  rw [pathExists, openRead]
  constructor
  · intro exists_path
    cases followed : fs.follow fs.linkLimit ⟨true, names⟩ with
    | error error => rw [followed] at exists_path; cases exists_path
    | ok found =>
        obtain ⟨clean, located⟩ := follow_ok followed
        obtain ⟨left, leads⟩ := locate_ok located
        exact ⟨clean, found, left, leads⟩
  · rintro ⟨clean, found, left, leads⟩
    rw [walk] at leads
    simp [follow, clean, PathBuf.isEmpty, locate, startOf, leads, Except.isOk, Except.toBool]

/-- A real location is where its own names lead. -/
theorem walk_real (real : fs.Real names) : fs.walk names = .found names fs.linkLimit := by
  have arrived : fs.advance [] (names.map .entry) = .arrived names := FileTree.advance_entries real
  exact FileTree.lookup_of_arrived arrived fs.linkLimit

/-- Opening an absolute path leads where its names lead, if none has a zero character. -/
theorem openRead_iff : fs.openRead ⟨true, names⟩ = .ok location ↔
    (⟨true, names⟩ : PathBuf).hasNul = false ∧ ∃ left, fs.walk names = .found location left := by
  rw [openRead]
  constructor
  · intro opened
    obtain ⟨clean, located⟩ := follow_ok opened
    exact ⟨clean, locate_ok located⟩
  · rintro ⟨clean, left, leads⟩
    rw [walk] at leads
    simp [follow, clean, PathBuf.isEmpty, locate, startOf, leads]

/-- Names are walked one part after the other. -/
theorem walk_append : fs.walk (first ++ second) =
    match fs.walk first with
    | .found middle left => fs.lookup left middle (second.map .entry)
    | .absent directory name => if second.isEmpty then .absent directory name else .failed .notFound
    | .failed error => .failed error := by
  rw [walk, List.map_append, FileTree.lookup_append, ← walk]
  cases fs.walk first with
  | found middle left => rfl
  | absent directory name =>
      dsimp only
      rw [List.isEmpty_map]
  | failed error => rfl

/-- Whatever is above an existing path exists. -/
theorem pathExists_above (exists_path : fs.pathExists ⟨true, first ++ second⟩ = true) :
    fs.pathExists ⟨true, first⟩ = true := by
  obtain ⟨clean, found, left, leads⟩ := pathExists_iff.mp exists_path
  rw [walk_append] at leads
  refine pathExists_iff.mpr ⟨?_, ?_⟩
  · rw [PathBuf.hasNul, List.any_append, Bool.or_eq_false_iff] at clean
    exact clean.1
  · cases result : fs.walk first with
    | found middle left => exact ⟨middle, left, rfl⟩
    | absent directory name =>
        rw [result] at leads
        dsimp only at leads
        split at leads <;> cases leads
    | failed error => rw [result] at leads; cases leads

/-- The last name is looked up in the directory that the names above lead to. -/
theorem walk_concat (leads : fs.walk above = .found directory left)
    (is_directory : fs.node directory = some .directory)
    (name : FileName) :
    fs.walk (above ++ [name]) =
      match fs.node (directory ++ [name]) with
      | none => .absent directory name
      | some (.link _ _) => fs.lookup left directory [.entry name]
      | some _ => .found (directory ++ [name]) left := by
  rw [walk_append, leads]
  dsimp only
  cases stands : fs.node (directory ++ [name]) with
  | none =>
      rw [FileTree.lookup.eq_def, List.map_singleton, FileTree.advance_entry is_directory, stands]
      rfl
  | some node =>
      cases node with
      | link absolute target => rfl
      | _ =>
          rw [FileTree.lookup.eq_def, List.map_singleton,
            FileTree.advance_entry is_directory, stands]
          rfl

/-- One node was put at a location that was missing or held no directory; nothing else changed. -/
structure PutAt (fs after : FileSystem) (location : List FileName)
    (node : TreeNode FileName (List UInt8)) : Prop where
  linkLimit : after.linkLimit = fs.linkLimit
  tree : ∃ inside free, after.toFileTree = fs.insert location node inside free

/-- Only the place that something is put at changes. -/
theorem PutAt.node {put : TreeNode FileName (List UInt8)} (stored : PutAt fs after location put)
    (other : List FileName) : after.node other = if other = location then some put
    else fs.node other := by
  obtain ⟨inside, free, tree⟩ := stored.tree
  rw [tree, FileTree.insert_node]

/-- What is put without an error stands at its place. -/
theorem put_ok {node : TreeNode FileName (List UInt8)} (stored : fs.put location node = .ok after) :
    PutAt fs after location node := by
  rw [put] at stored
  split at stored
  · next free =>
    split at stored
    · next inside =>
      cases stored
      exact ⟨rfl, inside, free, rfl⟩
    · cases stored
  · cases stored

/-- The names above a last one lead to a directory. -/
theorem parentOf_ok (looked : fs.parentOf ⟨true, above ++ [name]⟩ = .ok directory) :
    (⟨true, above ++ [name]⟩ : PathBuf).hasNul = false ∧ fs.node directory = some .directory ∧
      ∃ left, fs.walk above = .found directory left := by
  rw [parentOf] at looked
  split at looked
  · cases looked
  · next clean =>
    rw [List.dropLast_concat] at looked
    cases located : fs.locate fs.linkLimit true (above.map .entry) with
    | error error => rw [located] at looked; cases looked
    | ok location =>
        rw [located] at looked
        dsimp only at looked
        split at looked
        · next is_directory =>
          cases looked
          exact ⟨by simpa using clean, is_directory, locate_ok located⟩
        · cases looked

/-- `mkdir` makes a directory where nothing stood, in the directory that the path above leads to. -/
theorem mkdir_ok (made : fs.mkdir ⟨true, above ++ [name]⟩ = .ok after) :
    ∃ directory left, (⟨true, above ++ [name]⟩ : PathBuf).hasNul = false ∧
      fs.walk above = .found directory left ∧
      fs.node directory = some .directory ∧ fs.node (directory ++ [name]) = none ∧
      PutAt fs after (directory ++ [name]) .directory := by
  rw [mkdir, List.getLast?_concat] at made
  dsimp only at made
  cases looked : fs.parentOf ⟨true, above ++ [name]⟩ with
  | error error => rw [looked] at made; cases made
  | ok directory =>
      rw [looked] at made
      dsimp only at made
      obtain ⟨clean, is_directory, left, leads⟩ := parentOf_ok looked
      split at made
      · cases made
      · next missing =>
        exact ⟨directory, left, clean, leads, is_directory, by simpa using missing, put_ok made⟩

/-- What a call may change: it adds to the tree, and only below one directory. -/
structure GrownBelow (fs after : FileSystem) (directory : List FileName) : Prop where
  linkLimit : after.linkLimit = fs.linkLimit
  extends_tree : fs.Extends after.toFileTree
  inside : ∀ location, after.node location ≠ fs.node location → directory <+: location

/-- A file system has grown by nothing. -/
theorem GrownBelow.refl (fs : FileSystem) (directory : List FileName) :
    GrownBelow fs fs directory :=
  ⟨rfl, .refl fs.toFileTree, fun _ changed => absurd rfl changed⟩

/-- What has grown twice has grown below the upper directory. -/
theorem GrownBelow.trans {last : FileSystem} {deeper : List FileName}
    (grown : GrownBelow fs after directory)
    (more : GrownBelow after last deeper) (below : directory <+: deeper) :
    GrownBelow fs last directory where
  linkLimit := more.linkLimit.trans grown.linkLimit
  extends_tree := grown.extends_tree.trans more.extends_tree
  inside location changed := by
    by_cases same : last.node location = after.node location
    · exact grown.inside location (same ▸ changed)
    · exact below.trans (more.inside location same)

/-- Names that led somewhere lead there still. -/
theorem GrownBelow.walk (grown : GrownBelow fs after directory)
    (leads : fs.walk names = .found found left) :
    after.walk names = .found found left := by
  rw [FileSystem.walk, grown.linkLimit]
  exact grown.extends_tree.lookup leads

/-- A new entry of a directory is growth below it. -/
theorem PutAt.grown {node : TreeNode FileName (List UInt8)}
    (stored : PutAt fs after (directory ++ [name]) node)
    (missing : fs.node (directory ++ [name]) = none) : GrownBelow fs after directory where
  linkLimit := stored.linkLimit
  extends_tree := by
    obtain ⟨inside, free, tree⟩ := stored.tree
    rw [tree]
    exact FileTree.extends_insert missing
  inside location changed := by
    rw [stored.node] at changed
    split at changed
    · next here => exact here ▸ List.prefix_append _ _
    · exact absurd rfl changed

/-- The path after the tail was made: it leads to an empty directory. -/
structure Made (after : FileSystem) (names location : List FileName) (left : Nat) : Prop where
  leads : after.walk names = .found location left
  directory : after.node location = some .directory
  empty : ∀ name, after.node (location ++ [name]) = none

/-- A directory that `mkdir` made. -/
theorem mkdir_made (made : fs.mkdir ⟨true, above ++ [name]⟩ = .ok after)
    (leads : fs.walk above = .found directory left) :
    GrownBelow fs after directory ∧ Made after (above ++ [name]) (directory ++ [name]) left := by
  obtain ⟨other, rest, clean, again, is_directory, missing, stored⟩ := mkdir_ok made
  rw [leads, Lookup.found.injEq] at again
  obtain ⟨rfl, rfl⟩ := again
  have grown := stored.grown missing
  have stands : after.node (directory ++ [name]) = some .directory := by
    rw [stored.node, if_pos rfl]
  refine ⟨grown, ?_, stands, fun below => ?_⟩
  · rw [walk_concat (grown.walk leads) (grown.extends_tree _ _ is_directory) name, stands]
  · obtain ⟨inside, free, tree⟩ := stored.tree
    rw [tree]
    exact FileTree.insert_below missing below

/-- The last name of an existing path stands in a directory. -/
theorem walk_concat_found (leads : fs.walk (above ++ [name]) = .found found left) :
    ∃ directory rest, fs.walk above = .found directory rest ∧ fs.node directory = some .directory ∧
      (fs.node (directory ++ [name])).isSome := by
  rw [walk_append] at leads
  cases result : fs.walk above with
  | absent directory other => rw [result] at leads; cases leads
  | failed error => rw [result] at leads; cases leads
  | found directory rest =>
      rw [result] at leads
      dsimp only at leads
      rw [FileTree.lookup.eq_def, List.map_singleton] at leads
      by_cases is_directory : fs.node directory = some .directory
      · rw [FileTree.advance_entry is_directory] at leads
        refine ⟨directory, rest, rfl, is_directory, ?_⟩
        cases stands : fs.node (directory ++ [name]) with
        | none => rw [stands] at leads; cases leads
        | some node => rfl
      · rw [FileTree.advance_cons, if_neg is_directory] at leads
        cases leads

/-- An existing path cannot be made, and this is not because something above it is missing. -/
theorem mkdir_existing (leads : fs.walk (above ++ [name]) = .found found left) :
    ∃ error, fs.mkdir ⟨true, above ++ [name]⟩ = .error error ∧ error ≠ .notFound := by
  obtain ⟨directory, rest, above_leads, is_directory, stands⟩ := walk_concat_found leads
  rw [walk] at above_leads
  rw [mkdir, List.getLast?_concat]
  dsimp only
  by_cases clean : (⟨true, above ++ [name]⟩ : PathBuf).hasNul = true
  · exact ⟨.invalidInput, by simp [parentOf, clean], by simp⟩
  · exact ⟨.alreadyExists, by simp [parentOf, clean, locate, startOf, above_leads, is_directory,
      stands], by simp⟩

/-- A path is made at once, or not at all, or after the path above it. -/
theorem createDirAll_cases (fs : FileSystem) (above : List FileName) (name : FileName) :
    fs.mkdir ⟨true, above ++ [name]⟩ = .ok (fs.createDirAll ⟨true, above ++ [name]⟩).1 ∨
    (fs.createDirAll ⟨true, above ++ [name]⟩).1 = fs ∧
      ((fs.createDirAll ⟨true, above ++ [name]⟩).2 = .ok () →
          fs.isDir ⟨true, above ++ [name]⟩ = true) ∨
    (fs.createDirAll ⟨true, above⟩).2 = .ok () ∧
      (fs.createDirAll ⟨true, above⟩).1.mkdir ⟨true, above ++ [name]⟩ =
        .ok (fs.createDirAll ⟨true, above ++ [name]⟩).1 ∨
    (fs.createDirAll ⟨true, above ++ [name]⟩).1 = (fs.createDirAll ⟨true, above⟩).1 ∧
      ((fs.createDirAll ⟨true, above ++ [name]⟩).2 = .ok () →
          (fs.createDirAll ⟨true, above⟩).2 = .ok () ∧
        (fs.createDirAll ⟨true, above⟩).1.isDir ⟨true, above ++ [name]⟩ = true) := by
  have refused (fs : FileSystem) (error : Errno) (fails : (if fs.isDir ⟨true, above ++ [name]⟩ then
      (.ok () : Except Errno Unit) else .error error) = .ok ()) :
          fs.isDir ⟨true, above ++ [name]⟩ = true := by
    split at fails
    · next is_directory => exact is_directory
    · cases fails
  rw [createDirAll_concat]
  cases made : fs.mkdir ⟨true, above ++ [name]⟩ with
  | ok after => exact .inl rfl
  | error error =>
      cases error with
      | notFound =>
          obtain ⟨after, outcome⟩ := fs.createDirAll ⟨true, above⟩
          cases outcome with
          | error error => exact .inr (.inr (.inr ⟨rfl, fun fails => nomatch fails⟩))
          | ok =>
              dsimp only
              cases again : after.mkdir ⟨true, above ++ [name]⟩ with
              | ok last => exact .inr (.inr (.inl ⟨rfl, rfl⟩))
              | error error =>
                exact .inr (.inr (.inr ⟨rfl, fun fails => ⟨rfl, refused after error fails⟩⟩))
      | _ => exact .inr (.inl ⟨rfl, refused fs _⟩)

/-- Nothing is made for an existing path. -/
theorem createDirAll_existing (leads : fs.walk names = .found found left) :
    (fs.createDirAll ⟨true, names⟩).1 = fs := by
  induction names using List.reverseRecOn with
  | nil => rfl
  | append_singleton above name _ =>
      obtain ⟨error, refused, other⟩ := mkdir_existing leads
      rw [createDirAll_concat, refused]
      cases error with
      | notFound => exact absurd rfl other
      | _ => rfl

/-- A directory exists. -/
theorem isDir_exists (is_directory : fs.isDir ⟨true, names⟩ = true) :
    fs.pathExists ⟨true, names⟩ = true := by
  rw [isDir] at is_directory
  rw [pathExists]
  cases opened : fs.openRead ⟨true, names⟩ with
  | error error => rw [opened] at is_directory; cases is_directory
  | ok location => rfl

/-- A path whose first missing name has no link can only be made below the directory that the names
before it lead to. The induction is on the missing names: a path is made after the one above it. -/
theorem createDirAll_missing (leads : fs.walk above = .found directory left)
    (missing : fs.pathExists ⟨true, above ++ [name]⟩ = false) (rest : List FileName) :
    GrownBelow fs (fs.createDirAll ⟨true, above ++ name :: rest⟩).1 directory ∧
      ((fs.createDirAll ⟨true, above ++ name :: rest⟩).2 = .ok () →
        Made (fs.createDirAll ⟨true, above ++ name :: rest⟩).1 (above ++ name :: rest)
          (directory ++ name :: rest) left) := by
  have blocked (more : List FileName) : fs.pathExists ⟨true, above ++ name :: more⟩ = false := by
    by_contra found_more
    rw [Bool.not_eq_false, List.append_cons] at found_more
    rw [pathExists_above found_more] at missing
    cases missing
  have absent (more : List FileName) : ¬ fs.isDir ⟨true, above ++ name :: more⟩ = true :=
      fun is_directory =>
    nomatch (blocked more).symm.trans (isDir_exists is_directory)
  induction rest using List.reverseRecOn with
  | nil =>
      have unchanged := createDirAll_existing leads
      rcases createDirAll_cases fs above name with
        made | ⟨same, succeeded⟩ | ⟨_, made⟩ | ⟨same, succeeded⟩
      · obtain ⟨grown, last⟩ := mkdir_made made leads
        exact ⟨grown, fun _ => last⟩
      · rw [same]
        exact ⟨.refl fs directory, fun outcome => absurd (succeeded outcome) (absent [])⟩
      · rw [unchanged] at made
        obtain ⟨grown, last⟩ := mkdir_made made leads
        exact ⟨grown, fun _ => last⟩
      · rw [unchanged] at same succeeded
        rw [same]
        exact ⟨.refl fs directory, fun outcome => absurd (succeeded outcome).2 (absent [])⟩
  | append_singleton more last ih =>
      rw [← List.cons_append, ← List.append_assoc, ← List.append_assoc]
      have below : directory <+: directory ++ name :: more := List.prefix_append _ _
      have still := absent (more ++ [last])
      rw [← List.cons_append, ← List.append_assoc] at still
      rcases createDirAll_cases fs (above ++ name :: more) last with
        made | ⟨same, succeeded⟩ | ⟨outcome, made⟩ |
        ⟨same, succeeded⟩
      · obtain ⟨found, left, clean, found_more, _⟩ := mkdir_ok made
        rw [PathBuf.hasNul, List.any_append, Bool.or_eq_false_iff] at clean
        exact nomatch (blocked more).symm.trans
          (pathExists_iff.mpr ⟨clean.1, found, left, found_more⟩)
      · rw [same]
        exact ⟨.refl fs directory, fun outcome => absurd (succeeded outcome) still⟩
      · obtain ⟨grown, deeper⟩ := mkdir_made made (ih.2 outcome).leads
        exact ⟨ih.1.trans grown below, fun _ => deeper⟩
      · rw [same]
        refine ⟨ih.1, fun outcome => ?_⟩
        obtain ⟨made, is_directory⟩ := succeeded outcome
        obtain ⟨leads_more, stands, empty⟩ := ih.2 made
        obtain ⟨_, found, rest, found_last⟩ := pathExists_iff.mp (isDir_exists is_directory)
        rw [walk_concat leads_more stands last, empty] at found_last
        cases found_last

/-- What a write reaches and what it changes lies below a location. -/
structure StaysBelow (fs : FileSystem) (root : List FileName)
    (result : FileSystem × Except Errno (List FileName)) :
    Prop where
  reached : ∀ location, result.2 = .ok location → root <+: location
  changed : ∀ location, result.1.node location ≠ fs.node location → root <+: location

/-- A failure changes nothing. -/
theorem StaysBelow.failed (fs : FileSystem) (root : List FileName) (error : Errno) :
    StaysBelow fs root (fs, .error error) :=
  ⟨fun _ reached => (nomatch reached), fun _ changed => absurd rfl changed⟩

/-- Writing at a place below the root stays below it. -/
theorem writeAt_below {root : List FileName} (inside : root <+: location) (content : List UInt8) :
    StaysBelow fs root (fs.writeAt content location) := by
  rw [writeAt]
  cases stored : fs.put location (.file content) with
  | error error => exact .failed fs root error
  | ok after =>
      refine ⟨fun other reached => ?_, fun other changed => ?_⟩
      · cases reached
        exact inside
      · dsimp only at changed
        rw [(put_ok stored).node] at changed
        split at changed
        · next here => exact here ▸ inside
        · exact absurd rfl changed

/-- A write stays below a location when its path leads there. -/
theorem write_below {root : List FileName} (content : List UInt8)
    (leads : (⟨true, names⟩ : PathBuf).hasNul = false →
      (∀ found left, fs.walk names = .found found left → root <+: found) ∧
        ∀ directory name, fs.walk names = .absent directory name → root <+: directory ++ [name]) :
    StaysBelow fs root (fs.write ⟨true, names⟩ content) := by
  rw [write]
  split
  · exact .failed fs root .invalidInput
  · next clean =>
    obtain ⟨to_file, to_new⟩ := leads (by simpa using clean)
    rw [if_neg (by simp [PathBuf.isEmpty])]
    change StaysBelow fs root (match fs.walk names with
      | .found location _ => fs.writeAt content location
      | .absent directory name => fs.writeAt content (directory ++ [name])
      | .failed error => (fs, .error (.ofLookup error)))
    cases leads : fs.walk names with
    | found location left => exact writeAt_below (to_file location left leads) content
    | absent directory name => exact writeAt_below (to_new directory name leads) content
    | failed error => exact .failed fs root (.ofLookup error)

/-- What was added below a location may be written after. -/
theorem StaysBelow.after_grown {root : List FileName}
    {result : FileSystem × Except Errno (List FileName)}
    (grown : GrownBelow fs after directory) (inside : root <+: directory)
    (below : StaysBelow after root result) :
    StaysBelow fs root result where
  reached := below.reached
  changed location changed := by
    by_cases same : result.1.node location = after.node location
    · exact inside.trans (grown.inside location (same ▸ changed))
    · exact below.changed location same

end FileSystem

/-- What opening a path reaches, and what creating it reaches and changes, lies below a location. -/
structure Confined (fs : FileSystem) (root : List FileName) (path : PathBuf) : Prop where
  opened : ∀ location, fs.openRead path = .ok location → root <+: location
  created : ∀ content, fs.StaysBelow root (writeLocal fs path content)

section Sandbox
variable {fs : FileSystem} {root location directory above : List FileName} {name : FileName}
  {left : Nat}

/-- Opening an absolute path leads where the kernel walks. -/
theorem opened_below (leads : ∀ found left, fs.walk names = .found found left → root <+: found) :
    ∀ location, fs.openRead ⟨true, names⟩ = .ok location → root <+: location := by
  intro location opened
  obtain ⟨left, found⟩ := FileSystem.locate_ok (FileSystem.follow_ok opened).2
  exact leads location left found

/-- Creating a path whose directory exists writes in the same state. -/
theorem created_below (content : List UInt8) {found : List FileName}
    (leads : fs.walk above = .found found left)
    (wrote : fs.StaysBelow root (fs.write ⟨true, above ++ [name]⟩ content)) :
    fs.StaysBelow root (writeLocal fs ⟨true, above ++ [name]⟩ content) := by
  rw [writeLocal_concat]
  have unchanged := FileSystem.createDirAll_existing leads
  rcases made : fs.createDirAll ⟨true, above⟩ with ⟨after, outcome⟩
  rw [made] at unchanged
  obtain rfl : after = fs := unchanged
  cases outcome with
  | ok => exact wrote
  | error error => exact .failed after root error

/-- A write to a real location below the root stays below the root. -/
theorem write_of_real (real : fs.Real location) (inside : root <+: location)
    (content : List UInt8) :
    fs.StaysBelow root (fs.write ⟨true, location⟩ content) := by
  refine FileSystem.write_below content fun _ =>
    ⟨fun found left leads => ?_, fun directory name absent => ?_⟩
  · rw [FileSystem.walk_real real, Lookup.found.injEq] at leads
    exact leads.1 ▸ inside
  · rw [FileSystem.walk_real real] at absent
    cases absent

/-- A real location below the root is confined to it. -/
theorem confined_of_real (real : fs.Real location) (inside : root <+: location) :
    Confined fs root ⟨true, location⟩ := by
  refine ⟨opened_below fun found left leads => ?_, fun content => ?_⟩
  · rw [FileSystem.walk_real real, Lookup.found.injEq] at leads
    exact leads.1 ▸ inside
  · have wrote := write_of_real real inside content
    cases location using List.reverseRecOn with
    | nil => exact wrote
    | append_singleton above name =>
      exact created_below content (FileSystem.walk_real real.above) wrote

/-- A missing name in a directory below the root is written there, unless it is a link. -/
theorem write_of_missing (leads : fs.walk above = .found directory left)
    (inside : root <+: directory) (missing : fs.pathExists ⟨true, above ++ [name]⟩ = false)
    (no_link : ∀ absolute target, fs.symlinkMetadata ⟨true, above ++ [name]⟩ ≠
      .ok (.link absolute target))
    (content : List UInt8) : fs.StaysBelow root (fs.write ⟨true, above ++ [name]⟩ content) := by
  refine FileSystem.write_below content fun clean =>
    ⟨fun found rest found_name => ?_, fun other new absent => ?_⟩
  · rw [FileSystem.pathExists_iff.mpr ⟨clean, found, rest, found_name⟩] at missing
    cases missing
  · by_cases is_directory : fs.node directory = some .directory
    · rw [FileSystem.walk_concat leads is_directory] at absent
      cases stands : fs.node (directory ++ [name]) with
      | none =>
          rw [stands] at absent
          cases absent
          exact inside.trans (List.prefix_append _ _)
      | some node =>
          cases node with
          | link absolute target =>
              refine absurd ?_ (no_link absolute target)
              rw [FileSystem.walk] at leads
              simp [FileSystem.symlinkMetadata, FileSystem.parentOf, clean, FileSystem.locate,
                FileSystem.startOf, leads, is_directory, stands]
          | _ =>
              rw [stands] at absent
              cases absent
    · rw [FileSystem.walk_append, leads] at absent
      dsimp only at absent
      rw [FileTree.lookup.eq_def, List.map_singleton, FileTree.advance_cons,
        if_neg is_directory] at absent
      cases absent

/-- Nothing that lies behind a missing name exists. -/
theorem pathExists_behind (missing : fs.pathExists ⟨true, above ++ [name]⟩ = false)
    (rest : List FileName) :
    fs.pathExists ⟨true, above ++ name :: rest⟩ = false := by
  by_contra found
  rw [Bool.not_eq_false, List.append_cons] at found
  rw [FileSystem.pathExists_above found] at missing
  cases missing

/-- A path is confined when the directory above its first missing name is, and that
name is no link at its end. -/
theorem confined_of_missing (leads : fs.walk above = .found directory left)
    (inside : root <+: directory)
    (missing : fs.pathExists ⟨true, above ++ [name]⟩ = false) (rest : List FileName)
    (no_link : ∀ absolute target, fs.symlinkMetadata ⟨true, above ++ name :: rest⟩ ≠
      .ok (.link absolute target)) :
    Confined fs root ⟨true, above ++ name :: rest⟩ := by
  have blocked := pathExists_behind missing rest
  refine ⟨fun location opened => ?_, fun content => ?_⟩
  · rw [FileSystem.pathExists, opened] at blocked
    cases blocked
  · induction rest using List.reverseRecOn with
    | nil =>
      exact created_below content leads (write_of_missing leads inside missing no_link content)
    | append_singleton more last _ =>
        rw [← List.cons_append, ← List.append_assoc, writeLocal_concat]
        obtain ⟨grown, made⟩ := FileSystem.createDirAll_missing leads missing more
        rcases result : fs.createDirAll ⟨true, above ++ name :: more⟩ with ⟨after, outcome⟩
        rw [result] at grown made
        cases outcome with
        | error error => exact .after_grown grown inside (.failed after root error)
        | ok =>
            obtain ⟨leads_more, stands, empty⟩ := made rfl
            refine .after_grown grown inside (FileSystem.write_below content fun _ => ⟨?_, ?_⟩)
            · intro found rest found_last
              rw [FileSystem.walk_concat leads_more stands, empty] at found_last
              cases found_last
            · intro other new absent
              rw [FileSystem.walk_concat leads_more stands, empty] at absent
              cases absent
              exact inside.trans ((List.prefix_append _ _).trans (List.prefix_append _ _))

/-- Components that begin with all components of an absolute path name a location below it. -/
theorem startsWith_iff : PathBuf.startsWith ⟨true, location⟩ ⟨true, root⟩ = true ↔
    root <+: location := by
  have named : Function.Injective Component.normal := fun _ _ same => Component.normal.inj same
  have components : PathBuf.startsWith ⟨true, location⟩ ⟨true, root⟩ = true ↔
      [.rootDir] ++ root.map Component.normal <+: [.rootDir] ++ location.map Component.normal :=
    List.isPrefixOf_iff_prefix
  rw [components, List.prefix_append_right_inj, List.prefix_map_iff_of_injective named]

/-- The nearest existing ancestor is followed by a name that is missing from it. -/
theorem nearestAncestor_some {absolute : Bool} {names : List FileName} {ancestor : PathBuf}
    (missing : fs.pathExists ⟨absolute, names⟩ = false)
    (found : nearestAncestor fs absolute names.reverse = some ancestor) :
    ∃ above name rest, names = above ++ name :: rest ∧ ancestor = ⟨absolute, above⟩ ∧
      fs.pathExists ⟨absolute, above⟩ = true ∧
        fs.pathExists ⟨absolute, above ++ [name]⟩ = false := by
  induction names using List.reverseRecOn with
  | nil => cases found
  | append_singleton above name ih =>
      rw [List.reverse_concat, nearestAncestor, List.reverse_reverse] at found
      split at found
      · next stands =>
        cases found
        exact ⟨above, name, [], rfl, rfl, stands, missing⟩
      · next gone =>
        obtain ⟨top, first, rest, split, same, stands, blocked⟩ := ih (by simpa using gone) found
        exact ⟨top, first, rest ++ [name], by simp [split], same, stands, blocked⟩

/-- What an accepted path is: a real location below the root, or a path whose
first missing name follows one. -/
inductive Inside (fs : FileSystem) (root : List FileName) : PathBuf → Prop where
  | existing {location : List FileName} (real : fs.Real location) (inside : root <+: location) :
      Inside fs root ⟨true, location⟩
  | missing {above directory rest : List FileName} {name : FileName} {left : Nat}
      (leads : fs.walk above = .found directory left) (inside : root <+: directory)
      (missing : fs.pathExists ⟨true, above ++ [name]⟩ = false)
      (no_link : ∀ absolute target, fs.symlinkMetadata ⟨true, above ++ name :: rest⟩ ≠
        .ok (.link absolute target)) :
      Inside fs root ⟨true, above ++ name :: rest⟩

/-- A path that leads inside is confined. -/
theorem Inside.confined {path : PathBuf} (inside : Inside fs root path) :
    Confined fs root path := by
  cases inside with
  | existing real inside => exact confined_of_real real inside
  | missing leads inside missing no_link => exact confined_of_missing leads inside missing _ no_link

/-- A path that leads inside is absolute. -/
theorem Inside.absolute {path : PathBuf} (inside : Inside fs root path) : path.absolute = true := by
  cases inside <;> rfl

/-- What the check accepts: where an existing path leads, or a missing path as it is,
after its nearest ancestor. -/
theorem checkInside_cases {names : List FileName} {requested workDir : String} {path : PathBuf}
    (accepted : checkInside fs ⟨true, names⟩ requested workDir ⟨true, root⟩ = .ok path) :
    (∃ location, fs.canonicalize ⟨true, names⟩ = .ok ⟨true, location⟩ ∧
        fs.pathExists ⟨true, names⟩ = true ∧
      path = ⟨true, location⟩ ∧ fs.Real location ∧ root <+: location) ∨
    (path = ⟨true, names⟩ ∧ ∃ above name rest directory left, names = above ++ name :: rest ∧
      fs.canonicalize ⟨true, above⟩ = .ok ⟨true, directory⟩ ∧
      fs.walk above = .found directory left ∧
      root <+: directory ∧ fs.pathExists ⟨true, above ++ [name]⟩ = false ∧
      ∀ absolute target, fs.symlinkMetadata ⟨true, above ++ name :: rest⟩ ≠
        .ok (.link absolute target)) := by
  rw [checkInside] at accepted
  split at accepted
  · next stands =>
    cases resolved : fs.canonicalize ⟨true, names⟩ with
    | error error =>
        rw [resolved] at accepted
        cases accepted
    | ok check =>
        rw [resolved] at accepted
        obtain ⟨location, rfl, real, _⟩ := FileSystem.canonicalize_ok resolved
        dsimp only at accepted
        split at accepted
        · next starts =>
          cases accepted
          exact .inl ⟨location, rfl, stands, rfl, real, startsWith_iff.mp starts⟩
        · cases accepted
  · next gone =>
    split at accepted
    · cases accepted
    · next no_link =>
      cases found : nearestAncestor fs true names.reverse with
      | none =>
          rw [found] at accepted
          cases accepted
      | some ancestor =>
          rw [found] at accepted
          obtain ⟨above, name, rest, rfl, rfl, stands, missing⟩ :=
            nearestAncestor_some (by simpa using gone) found
          dsimp only at accepted
          cases resolved : fs.canonicalize ⟨true, above⟩ with
          | error error =>
              rw [resolved] at accepted
              cases accepted
          | ok canonical =>
              rw [resolved] at accepted
              obtain ⟨location, rfl, _, followed⟩ := FileSystem.canonicalize_ok resolved
              dsimp only at accepted
              split at accepted
              · next starts =>
                cases accepted
                obtain ⟨_, directory, left, leads⟩ := FileSystem.pathExists_iff.mp stands
                obtain ⟨_, again⟩ := FileSystem.locate_ok (FileSystem.follow_ok followed).2
                obtain rfl : directory = location := FileTree.lookup_unique leads again
                exact .inr ⟨rfl, above, name, rest, directory, left, rfl, resolved, leads,
                  startsWith_iff.mp starts, missing, fun absolute target link =>
                    no_link absolute target link⟩
              · cases accepted

/-- An accepted path lies inside the work directory. -/
theorem checkInside_inside {names : List FileName} {requested workDir : String} {path : PathBuf}
    (accepted : checkInside fs ⟨true, names⟩ requested workDir ⟨true, root⟩ = .ok path) :
    Inside fs root path := by
  rcases checkInside_cases accepted with
    ⟨_, _, _, rfl, real, inside⟩ | ⟨rfl, _, _, _, _, _, rfl, _, leads, inside, missing, no_link⟩
  · exact .existing real inside
  · exact .missing leads inside missing no_link

/-- An accepted path is confined to the work directory. -/
theorem checkInside_confined {names : List FileName} {requested workDir : String} {path : PathBuf}
    (accepted : checkInside fs ⟨true, names⟩ requested workDir ⟨true, root⟩ = .ok path) :
    path.absolute = true ∧ Confined fs root path := by
  have inside := checkInside_inside accepted
  exact ⟨inside.absolute, inside.confined⟩

/-- A path that was normalized from an absolute one is absolute. -/
theorem foldl_absolute (components : List Component) {path : PathBuf}
    (absolute : path.absolute = true) :
    (components.foldl pushComponent path).absolute = true := by
  induction components generalizing path with
  | nil => exact absolute
  | cons component rest ih =>
      refine ih ?_
      cases component with
      | rootDir => rfl
      | _ => exact absolute

/-- What is asked for is resolved against an absolute base to an absolute path. -/
theorem resolve_absolute (requested : String) {base : PathBuf} (absolute : base.absolute = true) :
    ∃ names, resolve requested base = ⟨true, names⟩ := by
  have normalized (rest : List Component) : ∃ names, lexicalNormalize (.rootDir :: rest) =
      ⟨true, names⟩ := by
    have from_root : (lexicalNormalize (.rootDir :: rest)).absolute = true :=
      foldl_absolute rest rfl
    exact ⟨_, PathBuf.ext from_root rfl⟩
  rw [resolve]
  split
  · next from_root =>
    simp only [Component.components, from_root, if_true]
    exact normalized _
  · simp only [PathBuf.components, absolute, if_true]
    exact normalized _

/-- A directory that is accepted is canonical. -/
theorem canonicalDir_ok {dir : String} {canonical : PathBuf}
    (resolved : canonicalDir fs dir = .ok canonical) :
    fs.canonicalizeText dir = .ok canonical := by
  rw [canonicalDir] at resolved
  cases text : fs.canonicalizeText dir with
  | error error => rw [text] at resolved; cases resolved
  | ok path => rw [text] at resolved; cases resolved; rfl

/-- The text of an absolute path without dots has no dots either. -/
theorem components_display {names : List FileName} :
    Component.components (PathBuf.display ⟨true, names⟩) = .rootDir :: names.map .normal := by
  have named (name : FileName) : Component.ofPiece name.val = some (.normal name) := by
    simp [Component.ofPiece, name.2]
  have no_slash : ∀ piece ∈ [] :: names.map Subtype.val, '/' ∉ piece := by
    intro piece member
    rcases List.mem_cons.mp member with rfl | among
    · simp
    · obtain ⟨name, _, rfl⟩ := List.mem_map.mp among
      have valid := name.2
      simp only [isFileName, decide_eq_true_eq] at valid
      exact valid.2.2.2
  have kept : (names.map Subtype.val).filterMap Component.ofPiece = names.map .normal := by
    rw [List.filterMap_map]
    exact (List.filterMap_congr fun name _ => named name).trans
      (List.filterMap_eq_map (f := Component.normal) ▸ rfl)
  rw [Component.components, PathBuf.display, String.toList_ofList]
  cases names with
  | nil => rfl
  | cons name rest =>
      have text : ['/'] ++ ['/'].intercalate ((name :: rest).map Subtype.val) =
          ['/'].intercalate ([] :: (name :: rest).map Subtype.val) := rfl
      have pieces := List.splitOn_intercalate '/' no_slash (List.cons_ne_nil _ _)
      have from_root :
          Component.isAbsolute
          (String.ofList (['/'].intercalate ([] :: (name :: rest).map Subtype.val))) :=
        by rw [← text, Component.isAbsolute, String.toList_ofList]; rfl
      rw [if_pos rfl, text, pieces, List.filterMap_cons, kept, from_root]
      rfl

/-- The whole check: an accepted path has no dots, and neither opening nor creating it leads out of
the work directory. -/
theorem validatePathFrom_sound {requested cwd workDir : String} {path : PathBuf}
    (accepted : validatePathFrom fs requested cwd workDir = .ok path) :
    (∀ component ∈ Component.components path.display, component ≠ .curDir ∧
        component ≠ .parentDir) ∧
      ∃ root, fs.canonicalizeText workDir = .ok ⟨true, root⟩ ∧ Confined fs root path := by
  rw [validatePathFrom] at accepted
  cases work : canonicalDir fs workDir with
  | error error => rw [work] at accepted; cases accepted
  | ok workDirCanonical =>
      rw [work] at accepted
      dsimp only at accepted
      obtain ⟨root, rfl, _⟩ := FileSystem.canonicalizeText_ok (canonicalDir_ok work)
      split at accepted
      · cases accepted
      · next base based =>
        have absolute : base.absolute = true := by
          split at based
          · cases based
            rfl
          · obtain ⟨location, rfl, _⟩ := FileSystem.canonicalizeText_ok (canonicalDir_ok based)
            rfl
        obtain ⟨names, normalized⟩ := resolve_absolute requested absolute
        rw [normalized] at accepted
        obtain ⟨from_root, confined⟩ := checkInside_confined accepted
        refine ⟨fun component member => ?_, root, canonicalDir_ok work, confined⟩
        obtain ⟨_, names⟩ := path
        obtain rfl := from_root
        rw [components_display] at member
        rcases List.mem_cons.mp member with rfl | normal
        · simp
        · obtain ⟨name, _, rfl⟩ := List.mem_map.mp normal
          simp

end Sandbox

section Sample

def workName : FileName := ⟨['w'], rfl⟩

def linkName : FileName := ⟨['l'], rfl⟩

def directoryName : FileName := ⟨['d'], rfl⟩

/-- A work directory with a directory, and with a link that leads up and down again. -/
def sampleTree : FileTree FileName (List UInt8) :=
  ((FileTree.rootOnly.insert [workName] .directory (by decide) (by decide)).insert [workName,
    directoryName] .directory
    (by decide) (by decide)).insert [workName, linkName]
      (.link false [.parent, .entry workName, .entry directoryName])
      (by decide) (by decide)

def sampleSystem : FileSystem :=
  { sampleTree with
    processDir := [], processDir_directory := rfl, linkLimit := 40, realpathLimit := 40 }

/-- A new file behind a link. -/
def samplePath : PathBuf := ⟨true, [workName, linkName, ⟨['x'], rfl⟩]⟩

example : (validatePathFrom sampleSystem "../../x" "/w/d" "/w").isOk = false := rfl

/-- The new file is accepted and confined. -/
theorem validatePathFrom_sample :
    (∀ component ∈ Component.components samplePath.display, component ≠ .curDir ∧
        component ≠ .parentDir) ∧
      ∃ root, sampleSystem.canonicalizeText "/w" = .ok ⟨true, root⟩ ∧
        Confined sampleSystem root samplePath := by
  have accepted : validatePathFrom sampleSystem "l/x" "/w" "/w" = .ok samplePath := rfl
  exact validatePathFrom_sound accepted

end Sample

end Openheim.Tools
