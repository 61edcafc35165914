import Openheim.Tools.EntrySoundness

/-
This file says what may be done at an accepted path: whatever is written or made there stays below
the work directory. An accepted path stays one when the missing directories above it are made.
-/

namespace Openheim.Tools.FileSystem
variable {fs : FileSystem} {root names above location directory : List FileName} {name : FileName}
  {left : Nat}

theorem stepOfPiece_name (name : FileName) : stepOfPiece name.val = some (.entry name) := by
  rw [stepOfPiece, dif_pos name.2]

/-- The kernel reads the text of a path without dots as its names. -/
theorem steps_display (proper : names ≠ []) :
    steps (PathBuf.display ⟨true, names⟩) = names.map .entry := by
  have no_slash : ∀ piece ∈ [] :: names.map Subtype.val, '/' ∉ piece := by
    intro piece member
    rcases List.mem_cons.mp member with rfl | among
    · exact List.not_mem_nil
    · obtain ⟨name, _, rfl⟩ := List.mem_map.mp among
      have valid := name.2
      simp only [isFileName, decide_eq_true_eq] at valid
      exact valid.2.2.2
  obtain ⟨name, rest, rfl⟩ := List.exists_cons_of_ne_nil proper
  have text : ['/'] ++ ['/'].intercalate ((name :: rest).map Subtype.val) =
      ['/'].intercalate ([] :: (name :: rest).map Subtype.val) := rfl
  have pieces := List.splitOn_intercalate '/' no_slash (List.cons_ne_nil _ _)
  have kept : ((name :: rest).map Subtype.val).filterMap stepOfPiece =
      (name :: rest).map .entry := by
    rw [List.filterMap_map]
    exact (List.filterMap_congr fun name _ => stepOfPiece_name name).trans
      (List.filterMap_eq_map (f := PathStep.entry) ▸ rfl)
  have last : ([] :: (name :: rest).map Subtype.val).getLast? ≠ some [] := by
    intro empty
    rw [List.map_cons, List.getLast?_cons_cons, ← List.map_cons, List.getLast?_map] at empty
    obtain ⟨final, _, same⟩ := Option.map_eq_some_iff.mp empty
    have valid := final.2
    simp [isFileName, same] at valid
  rw [steps, PathBuf.display, String.toList_ofList, if_pos rfl, text, pieces, if_neg last,
    List.append_nil, List.filterMap_cons, kept]
  rfl

theorem mem_intercalate {separator char : Char} {pieces : List (List Char)}
    (member : char ∈ [separator].intercalate pieces) :
    char = separator ∨ ∃ piece ∈ pieces, char ∈ piece := by
  induction pieces with
  | nil => cases member
  | cons piece rest ih =>
      cases rest with
      | nil =>
          rw [List.intercalate_singleton] at member
          exact .inr ⟨piece, List.mem_cons_self, member⟩
      | cons next rest =>
          rw [List.intercalate_cons_cons, List.mem_append, List.mem_append,
            List.mem_singleton] at member
          rcases member with (here | same) | later
          · exact .inr ⟨piece, List.mem_cons_self, here⟩
          · exact .inl same
          · rcases ih later with same | ⟨other, among, inside⟩
            · exact .inl same
            · exact .inr ⟨other, List.mem_cons_of_mem piece among, inside⟩

/-- The text of a real location resolves to it. -/
theorem canonicalizeText_display (real : fs.Real root)
    (clean : (⟨true, root⟩ : PathBuf).hasNul = false) :
    fs.canonicalizeText (PathBuf.display ⟨true, root⟩) = .ok ⟨true, root⟩ := by
  have text : (PathBuf.display ⟨true, root⟩).toList =
      '/' :: ['/'].intercalate (root.map Subtype.val) := by
    rw [PathBuf.display, String.toList_ofList]
    rfl
  have no_nul : '\x00' ∉ (PathBuf.display ⟨true, root⟩).toList := by
    rw [text]
    intro member
    rcases List.mem_cons.mp member with slash | among
    · cases slash
    · rcases mem_intercalate among with slash | ⟨piece, among, inside⟩
      · cases slash
      · obtain ⟨name, stands, rfl⟩ := List.mem_map.mp among
        rw [PathBuf.hasNul, List.any_eq_false] at clean
        exact clean name stands (decide_eq_true inside)
  have nonempty : (PathBuf.display ⟨true, root⟩).isEmpty = false := by
    rw [Bool.eq_false_iff, ne_eq, String.isEmpty_iff]
    intro empty
    rw [empty] at text
    cases text
  have absolute : Component.isAbsolute (PathBuf.display ⟨true, root⟩) = true := by
    rw [Component.isAbsolute, text]
    rfl
  have leads : fs.lookup fs.realpathLimit [] (steps (PathBuf.display ⟨true, root⟩)) =
      .found root fs.realpathLimit := by
    by_cases top : root = []
    · have dot : steps (PathBuf.display ⟨true, []⟩) = [.current] := rfl
      rw [top, dot]
      exact FileTree.lookup_of_arrived (by simp [FileTree.advance, fs.root]) _
    · rw [steps_display top]
      exact FileTree.lookup_of_arrived (FileTree.advance_entries real) _
  rw [canonicalizeText, if_neg no_nul, nonempty, if_neg Bool.false_ne_true, absolute, locate,
    startOf, if_pos rfl, leads]
  rfl

/-- What a call leaves as it is: everything about the process but the tree. -/
structure SameProcess (fs after : FileSystem) : Prop where
  processDir : after.processDir = fs.processDir
  linkLimit : after.linkLimit = fs.linkLimit
  realpathLimit : after.realpathLimit = fs.realpathLimit

theorem SameProcess.refl (fs : FileSystem) : SameProcess fs fs := ⟨rfl, rfl, rfl⟩

theorem SameProcess.trans {after last : FileSystem} (first : SameProcess fs after)
    (second : SameProcess after last) :
    SameProcess fs last :=
  ⟨second.processDir.trans first.processDir, second.linkLimit.trans first.linkLimit,
    second.realpathLimit.trans first.realpathLimit⟩

theorem put_process {after : FileSystem} {node : TreeNode FileName (List UInt8)}
    (stored : fs.put location node = .ok after) : SameProcess fs after := by
  rw [put] at stored
  split at stored
  · split at stored
    · cases stored
      exact ⟨rfl, rfl, rfl⟩
    · cases stored
  · cases stored

theorem mkdir_process {after : FileSystem} {path : PathBuf} (made : fs.mkdir path = .ok after) :
    SameProcess fs after := by
  rw [mkdir] at made
  split at made
  · split at made <;> cases made
  · split at made
    · split at made
      · cases made
      · exact put_process made
    · cases made

/-- Making directories changes the tree only. -/
theorem createDirAll_process (fs : FileSystem) (path : PathBuf) :
    SameProcess fs (fs.createDirAll path).1 := by
  rw [createDirAll]
  induction path.names.reverse with
  | nil => exact .refl fs
  | cons name above ih =>
      rw [createAll]
      split
      · next made => exact mkdir_process made
      · rcases result : createAll path.absolute fs above with ⟨after, outcome⟩
        rw [result] at ih
        cases outcome with
        | error error => exact ih
        | ok =>
            dsimp only
            split
            · next made => exact ih.trans (mkdir_process made)
            · exact ih
      · exact .refl fs

/-- A path that was made has no zero character. -/
theorem createDirAll_clean (made : (fs.createDirAll ⟨true, above ++ [name]⟩).2 = .ok ()) :
    (⟨true, above ++ [name]⟩ : PathBuf).hasNul = false := by
  have of_directory {fs : FileSystem} (is_directory : fs.isDir ⟨true, above ++ [name]⟩ = true) :
      (⟨true, above ++ [name]⟩ : PathBuf).hasNul = false :=
        (pathExists_iff.mp (isDir_exists is_directory)).1
  have of_made {fs after : FileSystem} (made : fs.mkdir ⟨true, above ++ [name]⟩ = .ok after) :
      (⟨true, above ++ [name]⟩ : PathBuf).hasNul = false := by
    obtain ⟨_, _, clean, _⟩ := mkdir_ok made
    exact clean
  rcases createDirAll_cases fs above name with once | ⟨_, stands⟩ | ⟨_, last⟩ | ⟨_, stands⟩
  · exact of_made once
  · exact of_directory (stands made)
  · exact of_made last
  · exact of_directory (stands made).2

end Openheim.Tools.FileSystem

namespace Openheim.Tools
open FileSystem
variable {fs after : FileSystem} {root names : List FileName} {path : PathBuf}

/-- Making an accepted path as a directory adds only what is below the root. -/
theorem Inside.createDirAll (inside : Inside fs root path) :
    GrownBelow fs (fs.createDirAll path).1 root := by
  cases inside with
  | existing real _ =>
      rw [createDirAll_existing (walk_real real)]
      exact .refl fs root
  | missing leads inside missing _ =>
      obtain ⟨grown, _⟩ := createDirAll_missing leads missing _
      exact ⟨grown.linkLimit, grown.extends_tree, fun location changed =>
        inside.trans (grown.inside location changed)⟩

/-- Making the directories above an accepted path adds only what is below the root. -/
theorem Inside.createParent {parent : PathBuf} (inside : Inside fs root path)
    (above : path.parent = some parent) :
    GrownBelow fs (fs.createDirAll parent).1 root := by
  obtain ⟨_, same⟩ := Option.ite_none_left_eq_some.mp above
  cases same
  cases inside with
  | @existing location real _ =>
      have real_above : fs.Real location.dropLast := by
        obtain ⟨rest, whole⟩ := List.dropLast_prefix location
        rw [← whole] at real
        exact real.above
      rw [createDirAll_existing (walk_real real_above)]
      exact .refl fs root
  | @missing above directory rest name left leads inside missing _ =>
      cases rest using List.reverseRecOn with
      | nil =>
          rw [List.dropLast_concat, createDirAll_existing leads]
          exact .refl fs root
      | append_singleton more last =>
          rw [← List.cons_append, ← List.append_assoc, List.dropLast_concat]
          obtain ⟨grown, _⟩ := createDirAll_missing leads missing more
          exact ⟨grown.linkLimit, grown.extends_tree,
            fun location changed => inside.trans (grown.inside location changed)⟩

/-- A write to an accepted path stays below the root. -/
theorem Inside.write (inside : Inside fs root path) (content : List UInt8) :
    fs.StaysBelow root (fs.write path content) := by
  cases inside with
  | existing real inside => exact write_of_real real inside content
  | @missing above directory rest name left leads inside missing no_link =>
      cases rest using List.reverseRecOn with
      | nil => exact write_of_missing leads inside missing no_link content
      | append_singleton more last =>
          have blocked := pathExists_behind missing more
          rw [← List.cons_append, ← List.append_assoc]
          refine write_below content fun clean => ?_
          rw [PathBuf.hasNul, List.any_append, Bool.or_eq_false_iff] at clean
          have nowhere (found : List FileName) (left : Nat) :
              fs.walk (above ++ name :: more) ≠ .found found left := by
            intro leads
            rw [pathExists_iff.mpr ⟨clean.1, found, left, leads⟩] at blocked
            cases blocked
          have failed : ∃ error, fs.walk (above ++ name :: more ++ [last]) = .failed error := by
            rw [walk_append]
            cases leads : fs.walk (above ++ name :: more) with
            | found found left => exact absurd leads (nowhere found left)
            | absent directory name => exact ⟨.notFound, rfl⟩
            | failed error => exact ⟨error, rfl⟩
          obtain ⟨error, failed⟩ := failed
          rw [failed]
          refine ⟨?_, ?_⟩
          · rintro _ _ ⟨⟩
          · rintro _ _ ⟨⟩

/-- The directories that were made above a path are where its names lead, also for `realpath`. -/
theorem canonicalize_made {above directory rest : List FileName} {name : FileName}
    (resolved : fs.canonicalize ⟨true, above⟩ = .ok ⟨true, directory⟩)
    (grown : fs.Extends after.toFileTree)
    (same : SameProcess fs after) (clean : (⟨true, above ++ name :: rest⟩ : PathBuf).hasNul = false)
    (stands : after.node (directory ++ name :: rest) = some .directory) :
    after.canonicalize ⟨true, above ++ name :: rest⟩ = .ok ⟨true, directory ++ name :: rest⟩ := by
  obtain ⟨_, same_place, _, followed⟩ := canonicalize_ok resolved
  cases same_place
  obtain ⟨left, leads⟩ := locate_ok (follow_ok followed).2
  have first : after.lookup after.realpathLimit [] (above.map .entry) = .found directory left := by
    rw [same.realpathLimit]
    exact grown.lookup leads
  have second : after.lookup left directory ((name :: rest).map .entry) =
      .found (directory ++ name :: rest) left :=
    FileTree.lookup_of_arrived (FileTree.advance_entries (.directory stands)) left
  have whole : after.lookup after.realpathLimit [] ((above ++ name :: rest).map .entry) =
      .found (directory ++ name :: rest) left := by
    rw [List.map_append, FileTree.lookup_append, first]
    exact second
  simp only [canonicalize, follow, clean, PathBuf.isEmpty, locate, startOf, whole, Bool.not_true,
    Bool.false_and, Bool.false_eq_true, if_false, if_true, Except.map]

/-- A path that was accepted is accepted again when the directories above it were made. -/
theorem checkInside_made {requested workDir : String} {parent : PathBuf}
    (accepted : checkInside fs ⟨true, names⟩ requested workDir ⟨true, root⟩ = .ok path)
    (above : path.parent = some parent) (made : (fs.createDirAll parent).2 = .ok ()) :
    checkInside (fs.createDirAll parent).1 ⟨true, names⟩ requested workDir ⟨true, root⟩ =
      .ok path := by
  obtain ⟨_, same⟩ := Option.ite_none_left_eq_some.mp above
  cases same
  rcases checkInside_cases accepted with
    ⟨location, _, _, rfl, real, _⟩ | ⟨rfl, top, name, rest, directory, left, rfl, resolved, leads,
      inside, missing, _⟩
  · have real_above : fs.Real location.dropLast := by
      obtain ⟨rest, whole⟩ := List.dropLast_prefix location
      rw [← whole] at real
      exact real.above
    rw [createDirAll_existing (walk_real real_above)]
    exact accepted
  · cases rest using List.reverseRecOn with
    | nil =>
        rw [List.dropLast_concat, createDirAll_existing leads]
        exact accepted
    | append_singleton more last =>
        rw [← List.cons_append, ← List.append_assoc] at accepted ⊢
        rw [← List.cons_append, ← List.append_assoc, List.dropLast_concat] at made
        rw [List.dropLast_concat]
        obtain ⟨grown, deeper⟩ := createDirAll_missing leads missing more
        obtain ⟨leads_more, stands, empty⟩ := deeper made
        have same := createDirAll_process fs ⟨true, top ++ name :: more⟩
        have clean : (⟨true, top ++ name :: more⟩ : PathBuf).hasNul = false := by
          cases more using List.reverseRecOn with
          | nil => exact createDirAll_clean made
          | append_singleton others next =>
              rw [← List.cons_append, ← List.append_assoc] at made ⊢
              exact createDirAll_clean made
        generalize (fs.createDirAll ⟨true, top ++ name :: more⟩).1 = after at *
        have gone : after.pathExists ⟨true, top ++ name :: more ++ [last]⟩ = false := by
          rw [Bool.eq_false_iff]
          intro found
          obtain ⟨_, found, left, again⟩ := pathExists_iff.mp found
          rw [walk_concat leads_more stands, empty] at again
          cases again
        have nothing : ∀ absolute target,
            after.symlinkMetadata ⟨true, top ++ name :: more ++ [last]⟩ ≠
                .ok (.link absolute target) := by
          intro absolute target link
          rw [symlinkMetadata, List.getLast?_concat] at link
          dsimp only at link
          cases looked : after.parentOf ⟨true, top ++ name :: more ++ [last]⟩ with
          | error error =>
              rw [looked] at link
              cases link
          | ok found =>
              obtain ⟨_, _, _, again⟩ := parentOf_ok looked
              rw [leads_more, Lookup.found.injEq] at again
              rw [looked, ← again.1] at link
              dsimp only at link
              rw [empty] at link
              cases link
        have ancestor : nearestAncestor after true (top ++ name :: more ++ [last]).reverse =
            some ⟨true, top ++ name :: more⟩ := by
          rw [List.reverse_concat, nearestAncestor, List.reverse_reverse,
            if_pos (pathExists_iff.mpr ⟨clean, _, _, leads_more⟩)]
        have starts : PathBuf.startsWith ⟨true, directory ++ name :: more⟩ ⟨true, root⟩ = true :=
          startsWith_iff.mpr (inside.trans (List.prefix_append directory _))
        rw [checkInside, gone, if_neg Bool.false_ne_true]
        split
        · next absolute target link => exact absurd link (nothing absolute target)
        · rw [ancestor]
          dsimp only
          rw [canonicalize_made resolved grown.extends_tree same clean stands]
          dsimp only
          rw [if_pos starts]

/-- Validating a path checks what it resolves to. -/
theorem validatePath_eq {requested workDir : String}
    (canonical : fs.canonicalizeText workDir = .ok ⟨true, root⟩) :
    ∃ names, validatePath fs requested workDir =
      checkInside fs ⟨true, names⟩ requested workDir ⟨true, root⟩ ∧
      resolve requested ⟨true, root⟩ = ⟨true, names⟩ := by
  have work : canonicalDir fs workDir = .ok ⟨true, root⟩ := by rw [canonicalDir, canonical]
  obtain ⟨names, normalized⟩ :=
    resolve_absolute requested (show (⟨true, root⟩ : PathBuf).absolute = true from rfl)
  refine ⟨names, ?_, normalized⟩
  rw [validatePath, validatePathFrom, work]
  dsimp only
  rw [if_pos rfl]
  dsimp only
  rw [normalized]

theorem validatePath_inside {requested workDir : String}
    (canonical : fs.canonicalizeText workDir = .ok ⟨true, root⟩)
    (accepted : validatePath fs requested workDir = .ok path) : Inside fs root path := by
  obtain ⟨names, checks, _⟩ := @validatePath_eq fs root requested workDir canonical
  exact checkInside_inside (checks ▸ accepted)

/-- A request that was validated is validated again when the
directories above its path were made. -/
theorem validatePath_made {requested workDir : String} {parent : PathBuf}
    (canonical : fs.canonicalizeText workDir = .ok ⟨true, root⟩)
    (again : (fs.createDirAll parent).1.canonicalizeText workDir = .ok ⟨true, root⟩)
    (accepted : validatePath fs requested workDir = .ok path) (above : path.parent = some parent)
    (made : (fs.createDirAll parent).2 = .ok ()) :
    validatePath (fs.createDirAll parent).1 requested workDir = .ok path := by
  obtain ⟨names, checks, normalized⟩ := @validatePath_eq fs root requested workDir canonical
  obtain ⟨others, checks_again, same⟩ := @validatePath_eq _ root requested workDir again
  rw [normalized] at same
  cases same
  rw [checks_again]
  exact checkInside_made (checks ▸ accepted) above made

end Openheim.Tools
