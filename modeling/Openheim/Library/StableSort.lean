import Mathlib.Data.List.Nodup

/-
This file says where a stable sort puts one element.
-/

namespace StableSort
variable {α : Type*} {le : α → α → Bool} {before after front back : List α} {x y : α}

/-- What follows an element somewhere follows it in its only place. -/
theorem mem_of_pair_sublist (once : (front ++ x :: back).Nodup)
    (pair : [x, y].Sublist (front ++ x :: back)) :
    y ∈ back := by
  induction front with
  | nil =>
      have rest := List.Sublist.of_cons_cons pair
      exact rest.subset List.mem_cons_self
  | cons first front ih =>
      have other : x ≠ first := by
        rintro rfl
        exact (List.nodup_cons.mp once).1 (List.mem_append_right _ List.mem_cons_self)
      exact ih (List.nodup_cons.mp once).2 (pair.of_cons_of_ne other)

/-- What comes before an element somewhere comes before it in its only place. -/
theorem mem_of_sublist_pair (once : (front ++ x :: back).Nodup)
    (pair : [y, x].Sublist (front ++ x :: back)) :
    y ∈ front := by
  have turned : (front ++ x :: back).reverse = back.reverse ++ x :: front.reverse := by simp
  have found :=
    @mem_of_pair_sublist _ back.reverse front.reverse x y (turned ▸ List.nodup_reverse.mpr once)
    (turned ▸ pair.reverse)
  exact List.mem_reverse.mp found

/-- An element goes behind those before it that are not larger, and behind
those after it that are smaller. -/
theorem mergeSort_position (trans : ∀ a b c, le a b → le b c → le a c)
    (total : ∀ a b, (le a b || le b a) = true) (once : (before ++ x :: after).Nodup) :
    ∃ smaller larger, (before ++ x :: after).mergeSort le = smaller ++ x :: larger ∧
      smaller.length = before.countP (fun y => le y x) + after.countP fun y => !le x y := by
  have member : x ∈ (before ++ x :: after).mergeSort le :=
    List.mem_mergeSort.mpr (List.mem_append_right _ List.mem_cons_self)
  obtain ⟨smaller, larger, sorted⟩ := List.append_of_mem member
  have order := List.pairwise_mergeSort trans total (before ++ x :: after)
  have same := List.mergeSort_perm (before ++ x :: after) le
  rw [sorted] at order same
  have single : (smaller ++ x :: larger).Nodup := same.nodup_iff.mpr once
  have pairs {a b : α} (ordered : le a b) (pair : [a, b].Sublist (before ++ x :: after)) :
      [a, b].Sublist (smaller ++ x :: larger) :=
        sorted ▸ List.pair_sublist_mergeSort trans total ordered pair
  have apart : ∀ y ∈ smaller, y ≠ x := fun y inside equal =>
    (List.nodup_append.mp single).2.2 y inside x List.mem_cons_self equal
  have ranked (y : α) :
      y ∈ smaller ↔ y ∈ before.filter (fun y => le y x) ++ after.filter fun y => !le x y := by
    simp only [List.mem_append, List.mem_filter, Bool.not_eq_true']
    constructor
    · intro inside
      have below : le y x := (List.pairwise_append.mp order).2.2 y inside x List.mem_cons_self
      rcases List.mem_append.mp (same.subset (List.mem_append_left _ inside)) with early | late
      · exact .inl ⟨early, below⟩
      · have later : y ∈ after := (List.mem_cons.mp late).resolve_left (apart y inside)
        refine .inr ⟨later, ?_⟩
        by_contra above
        have pair : [x, y].Sublist (before ++ x :: after) :=
          ((List.singleton_sublist.mpr later).cons_cons x).trans (List.sublist_append_right _ _)
        have behind := mem_of_pair_sublist single (pairs (by simpa using above) pair)
        exact (List.nodup_append.mp single).2.2 y inside y (List.mem_cons_of_mem _ behind) rfl
    · rintro (⟨early, below⟩ | ⟨later, above⟩)
      · have pair : [y, x].Sublist (before ++ x :: after) :=
          (List.singleton_sublist.mpr early).append (List.singleton_sublist.mpr List.mem_cons_self)
        exact mem_of_sublist_pair single (pairs below pair)
      · have present : y ∈ smaller ++ x :: larger :=
          same.symm.subset (List.mem_append_right _ (List.mem_cons_of_mem _ later))
        rcases List.mem_append.mp present with inside | outside
        · exact inside
        · rcases List.mem_cons.mp outside with rfl | behind
          · exact absurd later (List.nodup_cons.mp (List.nodup_append.mp once).2.1).1
          · have ordered := List.rel_of_pairwise_cons (List.pairwise_append.mp order).2.1 behind
            rw [ordered] at above
            cases above
  have distinct : (before.filter (fun y => le y x) ++ after.filter fun y => !le x y).Nodup := by
    refine once.sublist (List.Sublist.append List.filter_sublist ?_)
    exact List.filter_sublist.trans (List.sublist_cons_self _ _)
  have counted :=
    ((List.perm_ext_iff_of_nodup (List.nodup_append.mp single).1 distinct).mpr ranked).length_eq
  refine ⟨smaller, larger, sorted, ?_⟩
  rw [counted, List.length_append, List.countP_eq_length_filter, List.countP_eq_length_filter]

end StableSort
