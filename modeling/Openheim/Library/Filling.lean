import Mathlib.Data.List.Infix

/-
This library describes how items are filled into rows of a limited width, each row as far as it
goes, and that no other division into rows of this width is shorter.
-/

namespace Filling
variable {Item : Type*} (size : Item → Nat) (width : Nat)

/-- The width of a row: its items with a blank between neighbours. -/
def rowSize : List Item → Nat
  | [] => 0
  | [item] => size item
  | item :: next :: rest => size item + 1 + rowSize (next :: rest)

/-- An item that is wider than a row has a row of its own. -/
def Fits (row : List Item) : Prop := row.length ≤ 1 ∨ rowSize size row ≤ width

/-- The rows of the items, given the row that is being filled. -/
def fillFrom (row : List Item) : List Item → List (List Item)
  | [] => [row]
  | item :: rest =>
      if rowSize size row + 1 + size item ≤ width then fillFrom (row ++ [item]) rest
      else row :: fillFrom [item] rest

def fill : List Item → List (List Item)
  | [] => []
  | item :: rest => fillFrom size width [item] rest

variable {size width} {row rest items : List Item} {item : Item}

/-- An item behind a row adds a blank and itself. -/
theorem rowSize_concat (nonempty : row ≠ []) (item : Item) :
    rowSize size (row ++ [item]) = rowSize size row + 1 + size item := by
  induction row with
  | nil => exact absurd rfl nonempty
  | cons first row ih =>
      cases row with
      | nil => rfl
      | cons next row =>
          rw [List.cons_append, List.cons_append, rowSize, ← List.cons_append,
            ih (List.cons_ne_nil _ _), rowSize]
          omega

theorem rowSize_le_append (row rest : List Item) :
    rowSize size row ≤ rowSize size (row ++ rest) := by
  induction rest using List.reverseRecOn with
  | nil => rw [List.append_nil]
  | append_singleton rest item ih =>
      rw [← List.append_assoc]
      by_cases nonempty : row ++ rest = []
      · rw [(List.append_eq_nil_iff.mp nonempty).1]
        exact Nat.zero_le _
      · rw [rowSize_concat nonempty]
        omega

/-- Less of a row is not wider. -/
theorem rowSize_le_of_suffix {part : List Item} (suffix : part <:+ row) :
    rowSize size part ≤ rowSize size row := by
  obtain ⟨front, rfl⟩ := suffix
  induction front with
  | nil => exact Nat.le_refl _
  | cons first front ih =>
      refine ih.trans ?_
      rw [List.cons_append]
      cases front ++ part with
      | nil => exact Nat.zero_le _
      | cons next row =>
          rw [rowSize]
          omega

theorem Fits.of_suffix {part : List Item} (fits : Fits size width row) (suffix : part <:+ row) :
    Fits size width part :=
  fits.imp suffix.length_le.trans (rowSize_le_of_suffix suffix).trans

/-- The rows hold the items in their order. -/
theorem flatten_fillFrom (row rest : List Item) :
    (fillFrom size width row rest).flatten = row ++ rest := by
  induction rest generalizing row with
  | nil => simp [fillFrom]
  | cons item rest ih =>
      rw [fillFrom]
      split
      · rw [ih, List.append_assoc, List.singleton_append]
      · rw [List.flatten_cons, ih, List.singleton_append]

theorem flatten_fill (items : List Item) : (fill size width items).flatten = items := by
  cases items with
  | nil => rfl
  | cons item rest => exact flatten_fillFrom [item] rest

theorem fits_fillFrom (nonempty : row ≠ []) (fits : Fits size width row) :
    ∀ filled ∈ fillFrom size width row rest, filled ≠ [] ∧ Fits size width filled := by
  induction rest generalizing row with
  | nil => exact List.forall_mem_singleton.mpr ⟨nonempty, fits⟩
  | cons item rest ih =>
      rw [fillFrom]
      split
      · next room =>
        exact ih (by simp) (.inr ((rowSize_concat nonempty item).trans_le room))
      · exact List.forall_mem_cons.mpr ⟨⟨nonempty, fits⟩,
          ih (List.cons_ne_nil _ _) (.inl (Nat.le_refl 1))⟩

/-- Every row holds something and fits. -/
theorem fits_fill (items : List Item) :
    ∀ row ∈ fill size width items, row ≠ [] ∧ Fits size width row := by
  cases items with
  | nil => simp [fill]
  | cons item rest => exact fits_fillFrom (List.cons_ne_nil _ _) (.inl (Nat.le_refl 1))

/-- The row takes in what fits behind it. -/
theorem fillFrom_append {more : List Item} (nonempty : row ≠ [])
    (room : more ≠ [] → rowSize size (row ++ more) ≤ width)
    (rest : List Item) :
    fillFrom size width row (more ++ rest) = fillFrom size width (row ++ more) rest := by
  induction more generalizing row with
  | nil => rw [List.append_nil, List.nil_append]
  | cons item more ih =>
      have whole := room (List.cons_ne_nil _ _)
      rw [List.append_cons] at whole ⊢
      have first : rowSize size row + 1 + size item ≤ width := by
        rw [← rowSize_concat nonempty]
        exact (rowSize_le_append _ _).trans whole
      rw [List.cons_append, fillFrom, if_pos first]
      exact ih (by simp) fun _ => whole

/-- One row is filled, and the rows after it are those of the items that are left. -/
theorem fillFrom_length (row rest : List Item) :
    ∃ left, left <:+ rest ∧
      (fillFrom size width row rest).length = (fill size width left).length + 1 := by
  induction rest generalizing row with
  | nil => exact ⟨[], List.suffix_refl _, rfl⟩
  | cons item rest ih =>
      rw [fillFrom]
      split
      · obtain ⟨left, suffix, length⟩ := ih (row ++ [item])
        exact ⟨left, suffix.trans (List.suffix_cons item rest), length⟩
      · exact ⟨item :: rest, List.suffix_refl _, List.length_cons⟩

/-- Items that fit into one row use up at most one row. -/
theorem fill_append_length (nonempty : row ≠ []) (fits : Fits size width row) (rest : List Item) :
    ∃ left, left <:+ rest ∧
      (fill size width (row ++ rest)).length = (fill size width left).length + 1 := by
  cases row with
  | nil => exact absurd rfl nonempty
  | cons item more =>
      have room : more ≠ [] → rowSize size ([item] ++ more) ≤ width := fun some_more => by
        refine fits.resolve_left fun single => ?_
        exact some_more (List.eq_nil_of_length_eq_zero (by simpa using single))
      rw [List.cons_append, fill, fillFrom_append (List.cons_ne_nil _ _) room]
      exact fillFrom_length _ rest

/-- No division into rows that fit has fewer rows, also if it holds more items in front. -/
theorem fill_fewest {rows : List (List Item)} (fits : ∀ row ∈ rows, Fits size width row)
    (within : items <:+ rows.flatten) : (fill size width items).length ≤ rows.length := by
  induction rows generalizing items with
  | nil =>
      rw [List.suffix_nil.mp within]
      exact Nat.le_refl 0
  | cons row rows ih =>
      obtain ⟨first, others⟩ := List.forall_mem_cons.mp fits
      rw [List.flatten_cons] at within
      have shorter {left : List Item} (suffix : left <:+ rows.flatten) :
          (fill size width left).length ≤ rows.length := ih others suffix
      rcases List.suffix_or_suffix_of_suffix within (List.suffix_append row rows.flatten) with
        inside | beyond
      · exact (shorter inside).trans (Nat.le_succ _)
      · obtain ⟨part, rfl⟩ := beyond
        rw [List.suffix_append_self_iff] at within
        by_cases empty : part = []
        · rw [empty, List.nil_append]
          exact (shorter (List.suffix_refl _)).trans (Nat.le_succ _)
        · obtain ⟨left, suffix, length⟩ :=
            fill_append_length empty (first.of_suffix within) rows.flatten
          rw [length]
          exact Nat.succ_le_succ (shorter suffix)

end Filling
