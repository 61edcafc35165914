import Openheim.Library.FileTree

/-
This library removes what stands at a location of a tree, or moves it to another, with everything
below.
-/

namespace FileTree
variable {Name Content : Type*} {tree : FileTree Name Content} {location source target : List Name}

theorem not_prefix_dropLast {above below : List Name} (apart : ¬ above <+: below) :
    ¬ above <+: below.dropLast :=
  fun inside => apart (inside.trans (List.dropLast_prefix below))

theorem not_prefix_own_dropLast (proper : location ≠ []) : ¬ location <+: location.dropLast := by
  intro inside
  have shorter := inside.length_le
  have some_ := List.length_pos_of_ne_nil proper
  rw [List.length_dropLast] at shorter
  omega

variable [DecidableEq Name]

/-- The tree without a location and all that is below it. -/
def remove (tree : FileTree Name Content) (location : List Name) (proper : location ≠ []) :
    FileTree Name Content where
  node other := if location <+: other then none else tree.node other
  root := by
    rw [if_neg (fun inside => proper (List.prefix_nil.mp inside))]
    exact tree.root
  parent other top stands := by
    by_cases inside : location <+: other
    · rw [if_pos inside] at stands
      cases stands
    · rw [if_neg inside] at stands
      rw [if_neg (not_prefix_dropLast inside)]
      exact tree.parent other top stands

theorem remove_node (proper : location ≠ []) {other : List Name} (apart : ¬ location <+: other) :
    (tree.remove location proper).node other = tree.node other := if_neg apart

/-- A move needs a directory for its target, which is not at or below its source. -/
structure CanMove (tree : FileTree Name Content) (source target : List Name) : Prop where
  leaves : source ≠ []
  arrives : target ≠ []
  inside : tree.node target.dropLast = some .directory
  apart : ¬ source <+: target

/-- The tree in which the target and all that is below it is what the source was. -/
def move (tree : FileTree Name Content) (source target : List Name)
    (can : tree.CanMove source target) :
    FileTree Name Content where
  node other :=
    if target <+: other then tree.node (source ++ other.drop target.length)
    else if source <+: other then none
    else tree.node other
  root := by
    rw [if_neg (fun inside => can.arrives (List.prefix_nil.mp inside)),
      if_neg (fun inside => can.leaves (List.prefix_nil.mp inside))]
    exact tree.root
  parent other top stands := by
    by_cases moved : target <+: other
    · obtain ⟨rest, rfl⟩ := moved
      rw [if_pos (List.prefix_append target rest), List.drop_left] at stands
      by_cases end_ : rest = []
      · rw [end_, List.append_nil, if_neg (not_prefix_own_dropLast can.arrives),
          if_neg (not_prefix_dropLast can.apart)]
        exact can.inside
      · rw [List.dropLast_append_of_ne_nil end_, if_pos (List.prefix_append target _),
          List.drop_left, ← List.dropLast_append_of_ne_nil end_]
        exact tree.parent _ (List.append_ne_nil_of_right_ne_nil source end_) stands
    · rw [if_neg moved] at stands
      by_cases left : source <+: other
      · rw [if_pos left] at stands
        cases stands
      · rw [if_neg left] at stands
        rw [if_neg (not_prefix_dropLast moved), if_neg (not_prefix_dropLast left)]
        exact tree.parent other top stands

theorem move_node (can : tree.CanMove source target) {other : List Name} (left : ¬ source <+: other)
    (moved : ¬ target <+: other) : (tree.move source target can).node other = tree.node other := by
  simp only [move, if_neg moved, if_neg left]

end FileTree
