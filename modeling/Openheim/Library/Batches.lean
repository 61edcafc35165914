import Mathlib.Data.List.Perm.Subperm

/-
Lists that are worked off in batches of a fixed size, and the first elements of a list that pass a
test.
-/

namespace Batches
variable {α : Type*}

/-- The batches of a list, with a bound on their number. -/
def batchesWithin (size : Nat) : Nat → List α → List (List α)
  | 0, _ => []
  | _ + 1, [] => []
  | bound + 1, first :: rest =>
      (first :: rest).take size :: batchesWithin size bound ((first :: rest).drop size)

/-- Cuts a list into batches of the given size; the last one may be shorter. -/
def batches (size : Nat) (list : List α) : List (List α) := batchesWithin size list.length list

@[simp] theorem batches_nil (size : Nat) : batches size ([] : List α) = [] := rfl

/-- A larger bound makes no more batches. -/
theorem batchesWithin_eq {size : Nat} (positive : 0 < size) {bound other : Nat} {list : List α}
    (enough : list.length ≤ bound) (also : list.length ≤ other) :
    batchesWithin size bound list = batchesWithin size other list := by
  induction bound generalizing other list with
  | zero =>
      obtain rfl := List.eq_nil_of_length_eq_zero (Nat.le_zero.mp enough)
      cases other <;> rfl
  | succ bound ih =>
      cases list with
      | nil => cases other <;> rfl
      | cons first rest =>
          cases other with
          | zero => simp at also
          | succ other =>
              rw [batchesWithin, batchesWithin, ih]
              · rw [List.length_drop]
                omega
              · rw [List.length_drop]
                omega

theorem batches_of_ne_nil {size : Nat} (positive : 0 < size) {list : List α} (present : list ≠ []) :
    batches size list = list.take size :: batches size (list.drop size) := by
  cases list with
  | nil => exact absurd rfl present
  | cons first rest =>
      rw [batches, List.length_cons, batchesWithin, batches, batchesWithin_eq positive]
      · rw [List.length_drop, List.length_cons]
        omega
      · exact Nat.le_refl _

/-- What fits into one batch is one batch. -/
theorem batches_of_length_le {size : Nat} {list : List α} (present : list ≠ [])
    (fits : list.length ≤ size) :
    batches size list = [list] := by
  have positive : 0 < size := Nat.lt_of_lt_of_le (List.length_pos_of_ne_nil present) fits
  rw [batches_of_ne_nil positive present, List.take_of_length_le fits, List.drop_of_length_le fits,
    batches_nil]

/-- The first elements that pass a test are found among as many more
elements as there are that fail it. -/
theorem take_filter_take {test : α → Bool} {list : List α} {failing : Nat}
    (few : (list.filter fun element => !test element).length ≤ failing) (count : Nat) :
    ((list.take (count + failing)).filter test).take count = (list.filter test).take count := by
  induction list generalizing failing count with
  | nil => simp
  | cons first rest ih =>
      cases passes : test first with
      | true =>
          rw [List.filter_cons_of_neg (by simp [passes])] at few
          cases count with
          | zero => rfl
          | succ count =>
              rw [Nat.succ_add, List.take_succ_cons, List.filter_cons_of_pos passes,
                List.filter_cons_of_pos passes, List.take_succ_cons, List.take_succ_cons, ih few]
      | false =>
          rw [List.filter_cons_of_pos (by simp [passes]), List.length_cons] at few
          obtain ⟨fewer, rfl⟩ :=
            Nat.exists_eq_add_of_lt (Nat.lt_of_lt_of_le (Nat.zero_lt_succ _) few)
          rw [Nat.zero_add, ← Nat.add_assoc, List.take_succ_cons,
            List.filter_cons_of_neg (by simp [passes]), List.filter_cons_of_neg (by simp [passes]),
              ih (by omega)]

end Batches
