import Openheim.Library.Separated
import Openheim.Memory.Skills
import Openheim.Tools.SandboxSoundness

/-
This file shows how the names of skills and their files correspond.
-/

namespace Openheim.Memory
open Openheim.Tools

/-- The name goes on after its first component, with nothing but slashes and single dots. -/
def TrailingSeparator (name : String) : Prop :=
  ∃ stem rest, name.toList = stem ++ '/' :: rest ∧ isFileName stem = true ∧
    ∀ piece ∈ rest.splitOn '/', piece = [] ∨ piece = ['.']

/-- The name has no separator, and with the extension it names a file directly in the directory. -/
def NamesChild (name : String) : Prop :=
  '/' ∉ name.toList ∧ ∀ dir, ∃ file : FileName, file.val = name.toList ++ ['.', 'm', 'd'] ∧
    Component.components (skillPath dir name) = Component.components dir ++ [.normal file]

section Pieces
variable {dir : String}

theorem isFileName_iff {name : List Char} :
    isFileName name = true ↔ name ≠ [] ∧ name ≠ ['.'] ∧ name ≠ ['.', '.'] ∧ '/' ∉ name := by
  rw [isFileName, decide_eq_true_eq]

/-- The pieces of a joined path are those of the directory, up to a
slash at its end, and the child. -/
theorem joinPath_pieces (nonempty : dir.isEmpty = false) (file : FileName) :
    ∃ base, (joinPath dir (String.ofList file.val)).toList.splitOn '/' = base ++ [file.val] ∧
      (dir.toList.splitOn '/' = base ∨ dir.toList.splitOn '/' = base ++ [[]]) ∧ base ≠ [] ∧
        Component.isAbsolute (joinPath dir (String.ofList file.val)) =
          Component.isAbsolute dir := by
  have plain := (isFileName_iff.mp file.2).2.2.2
  have relative : Component.isAbsolute (String.ofList file.val) = false := by
    rw [Component.isAbsolute, String.toList_ofList]
    refine decide_eq_false fun first => plain ?_
    exact List.mem_of_mem_head? first
  have some : dir.toList ≠ [] := by
    intro empty
    rw [String.toList_eq_nil_iff] at empty
    rw [empty] at nonempty
    cases nonempty
  rw [joinPath, relative, nonempty, Bool.or_self, if_neg Bool.false_ne_true]
  split
  · next slash =>
    obtain ⟨front, split⟩ : ∃ front, dir.toList = front ++ ['/'] :=
      ⟨dir.toList.dropLast, (List.dropLast_append_getLast? _ slash).symm⟩
    refine ⟨front.splitOn '/', ?_, .inr ?_, List.splitOn_ne_nil _ _, ?_⟩
    · rw [String.toList_append, String.toList_ofList, split, List.append_assoc,
        List.singleton_append, List.splitOn_append_cons_self, List.splitOn_eq_singleton plain]
    · rw [split, List.splitOn_append_cons_self]
      rfl
    · rw [Component.isAbsolute, Component.isAbsolute, String.toList_append,
        List.head?_append_of_ne_nil _ some]
  · refine ⟨dir.toList.splitOn '/', ?_, .inl rfl, List.splitOn_ne_nil _ _, ?_⟩
    · have slash : "/".toList = ['/'] := rfl
      rw [String.toList_append, String.toList_append, slash, String.toList_ofList,
        List.append_assoc, List.singleton_append, List.splitOn_append_cons_self,
          List.splitOn_eq_singleton plain]
    · rw [Component.isAbsolute, Component.isAbsolute, String.toList_append, String.toList_append,
        List.append_assoc, List.head?_append_of_ne_nil _ some]

theorem ofPiece_file (file : FileName) : Component.ofPiece file.val = some (.normal file) := by
  simp [Component.ofPiece, file.2]

/-- Joining a file name adds one component. -/
theorem components_joinPath (dir : String) (file : FileName) :
    Component.components (joinPath dir (String.ofList file.val)) = Component.components dir ++
      [.normal file] := by
  have valid := isFileName_iff.mp file.2
  cases empty : dir.isEmpty with
  | true =>
      have relative : Component.isAbsolute (String.ofList file.val) = false := by
        rw [Component.isAbsolute, String.toList_ofList]
        exact decide_eq_false fun first => valid.2.2.2 (List.mem_of_mem_head? first)
      have nothing : dir = "" := by simpa using empty
      have joined : joinPath dir (String.ofList file.val) = String.ofList file.val := by
        rw [joinPath, empty, Bool.or_true, if_pos rfl]
      have different : some file.val ≠ some ['.'] := fun same => valid.2.1 (Option.some.inj same)
      rw [joined, nothing, Component.components, relative, String.toList_ofList,
        List.splitOn_eq_singleton valid.2.2.2]
      simp only [Bool.false_eq_true, if_false, List.head?_cons, different, List.nil_append,
        List.filterMap_cons, ofPiece_file, List.filterMap_nil]
      rfl
  | false =>
      obtain ⟨base, joined, same, some, absolute⟩ := joinPath_pieces empty file
      have nothing : Component.ofPiece [] = none := rfl
      have head : (base ++ [file.val]).head? = base.head? := List.head?_append_of_ne_nil _ some
      have also : (base ++ [[]]).head? = base.head? := List.head?_append_of_ne_nil _ some
      have first : (dir.toList.splitOn '/').head? = base.head? := by
        rcases same with same | same
        · rw [same]
        · rw [same, also]
      have rest : (dir.toList.splitOn '/').filterMap Component.ofPiece =
          base.filterMap Component.ofPiece := by
        rcases same with same | same
        · rw [same]
        · rw [same, List.filterMap_append, List.filterMap_cons, nothing, List.filterMap_nil,
            List.append_nil]
      rw [Component.components, Component.components, joined, absolute, head, first, rest,
        List.filterMap_append, List.filterMap_cons, ofPiece_file, List.filterMap_nil,
          List.append_assoc]

end Pieces

section Names
variable {name : String}

theorem validateSkillName_ok (accepted : validateSkillName name = .ok ()) :
    ∃ file, Component.components name = [.normal file] := by
  rw [validateSkillName] at accepted
  split at accepted
  · cases accepted
  · next valid =>
    simp only [Bool.or_eq_true, Bool.not_eq_true', decide_eq_true_eq, not_or,
      Bool.not_eq_false] at valid
    have single := valid.1.1
    unfold isSingleNormalComponent at single
    split at single
    · next file components => exact ⟨file, components⟩
    · cases single

theorem ofPiece_eq_normal {piece : List Char} {file : FileName}
    (normal : Component.ofPiece piece = some (.normal file)) : piece = file.val := by
  rw [Component.ofPiece] at normal
  split at normal
  · cases normal
    rfl
  · split at normal <;> cases normal

theorem ofPiece_eq_none {piece : List Char} (plain : '/' ∉ piece)
    (nothing : Component.ofPiece piece = none) :
    piece = [] ∨ piece = ['.'] := by
  rw [Component.ofPiece] at nothing
  split at nothing
  · cases nothing
  · next other =>
    split at nothing
    · cases nothing
    · next dots =>
      by_contra neither
      rw [not_or] at neither
      exact other (isFileName_iff.mpr ⟨neither.1, neither.2, dots, plain⟩)

/-- A path with one normal component has a name as its first piece, and then
only pieces that do not count. -/
theorem single_pieces {file : FileName} {first : List Char} {rest : List (List Char)}
    (single : Component.components name = [.normal file])
    (pieces : name.toList.splitOn '/' = first :: rest) :
    first = file.val ∧ ∀ piece ∈ rest, piece = [] ∨ piece = ['.'] := by
  have plain := Separated.not_mem_piece '/' name.toList
  rw [pieces] at plain
  obtain ⟨-, later⟩ := List.forall_mem_cons.mp plain
  rw [Component.components, pieces] at single
  split at single
  · cases single
  · next relative =>
    split at single
    · cases single
    · next dotless =>
      rw [List.nil_append] at single
      cases kind : Component.ofPiece first with
      | none =>
          exfalso
          rcases ofPiece_eq_none (List.forall_mem_cons.mp plain).1 kind with rfl | rfl
          · cases text : name.toList with
            | nil =>
                rw [text] at pieces
                cases pieces
                cases single
            | cons char others =>
                rw [text, List.splitOn_cons_eq_if_modifyHead] at pieces
                split at pieces
                · next slash =>
                  refine relative ?_
                  rw [Component.isAbsolute, text, beq_iff_eq.mp slash]
                  rfl
                · obtain ⟨head, tail, same⟩ :=
                    List.exists_cons_of_ne_nil (List.splitOn_ne_nil '/' others)
                  rw [same] at pieces
                  cases pieces
          · exact dotless rfl
      | some component =>
          rw [List.filterMap_cons, kind] at single
          obtain ⟨rfl, blank⟩ := List.cons.inj single
          refine ⟨ofPiece_eq_normal kind, fun piece member => ?_⟩
          exact ofPiece_eq_none (later piece member)
            (List.filterMap_eq_nil_iff.mp blank piece member)

/-- An accepted name is a file name, or it goes on with slashes and dots. -/
theorem accepted_cases (accepted : validateSkillName name = .ok ()) :
    isFileName name.toList = true ∨ TrailingSeparator name := by
  obtain ⟨file, single⟩ := validateSkillName_ok accepted
  by_cases slash : '/' ∈ name.toList
  · obtain ⟨stem, rest, split, plain⟩ := List.eq_append_cons_of_mem slash
    have pieces : name.toList.splitOn '/' = stem :: rest.splitOn '/' := by
      rw [split, List.splitOn_append_cons_self, List.splitOn_eq_singleton plain,
        List.singleton_append]
    obtain ⟨same, blank⟩ := single_pieces single pieces
    exact .inr ⟨stem, rest, split, same ▸ file.2, blank⟩
  · obtain ⟨same, -⟩ := single_pieces single (List.splitOn_eq_singleton slash)
    exact .inl (same ▸ file.2)

/-- An accepted name names a file in the directory exactly when it does not go
on after its first component. -/
theorem namesChild_iff (accepted : validateSkillName name = .ok ()) :
    NamesChild name ↔ ¬ TrailingSeparator name := by
  constructor
  · rintro ⟨plain, -⟩ ⟨stem, rest, split, -⟩
    exact plain (split ▸ List.mem_append_right _ List.mem_cons_self)
  · intro whole
    have valid := isFileName_iff.mp ((accepted_cases accepted).resolve_right whole)
    have named : isFileName (name.toList ++ ['.', 'm', 'd']) = true := by
      have long : 3 < (name.toList ++ ['.', 'm', 'd']).length := by
        have positive := List.length_pos_of_ne_nil valid.1
        simp only [List.length_append, List.length_cons, List.length_nil]
        omega
      refine isFileName_iff.mpr ⟨?_, ?_, ?_, ?_⟩
      · intro same
        simp [same] at long
      · intro same
        simp [same] at long
      · intro same
        simp [same] at long
      · simpa using valid.2.2.2
    refine ⟨valid.2.2.2, fun dir => ⟨⟨_, named⟩, rfl, ?_⟩⟩
    have path :
        skillPath dir name = joinPath dir (String.ofList (name.toList ++ ['.', 'm', 'd'])) := by
      rw [skillPath, String.ofList_append, String.ofList_toList]
    rw [path]
    exact components_joinPath dir ⟨_, named⟩

end Names

end Openheim.Memory
