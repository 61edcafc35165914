import Mathlib.Data.List.Basic
import Mathlib.Logic.Function.Basic

/-
Items in slots with numbers, where a new item takes the next number and a settled one leaves its
slot.
-/

namespace Openheim
variable {Item : Type*} {slots others : Nat → Option Item} {bound : Nat} {item : Item}

/-- The items of the slots below a bound, in the order of their numbers. -/
def numbered (slots : Nat → Option Item) (bound : Nat) : List Item :=
  (List.range bound).filterMap slots

/-- Only the slots below the bound count. -/
theorem numbered_congr (same : ∀ n < bound, slots n = others n) :
    numbered slots bound = numbered others bound :=
  List.filterMap_congr fun n inside => same n (List.mem_range.mp inside)

/-- The next slot comes last. -/
theorem numbered_succ :
    numbered slots (bound + 1) = numbered slots bound ++ (slots bound).toList := by
  rw [numbered, List.range_succ, List.filterMap_append, numbered]
  cases held : slots bound with
  | none => rw [List.filterMap_cons_none held, List.filterMap_nil, Option.toList_none]
  | some item => rw [List.filterMap_cons_some held, List.filterMap_nil, Option.toList_some]

/-- A new item comes last. -/
theorem numbered_add :
    numbered (Function.update slots bound (some item)) (bound + 1) =
    numbered slots bound ++ [item] := by
  have before : numbered (Function.update slots bound (some item)) bound = numbered slots bound :=
    numbered_congr fun n inside => Function.update_of_ne (Nat.ne_of_lt inside) _ _
  rw [numbered_succ, before, Function.update_self, Option.toList_some]

/-- An item that leaves its slot is missing, and the others stay. -/
theorem numbered_remove {n : Nat} (held : slots n = some item) (inside : n < bound) :
    (numbered slots bound).Perm (item :: numbered (Function.update slots n none) bound) := by
  induction bound with
  | zero => exact absurd inside (Nat.not_lt_zero n)
  | succ bound ih =>
      rw [numbered_succ, numbered_succ]
      cases Nat.lt_succ_iff_lt_or_eq.mp inside with
      | inl below =>
          rw [Function.update_of_ne (Nat.ne_of_gt below)]
          exact (ih below).append_right _
      | inr last =>
          subst last
          have before : numbered (Function.update slots n none) n = numbered slots n :=
            numbered_congr fun k inside => Function.update_of_ne (Nat.ne_of_lt inside) _ _
          rw [held, before, Function.update_self, Option.toList_some, Option.toList_none,
            List.append_nil]
          exact List.perm_append_singleton item _

/-- What a slot holds after an update is the new item in its slot, or an old one in another. -/
theorem held_update {n k : Nat} {new : Item}
    (held : Function.update slots n (some new) k = some item) :
    k = n ∧ item = new ∨ k ≠ n ∧ slots k = some item := by
  by_cases own : k = n
  · rw [own, Function.update_self] at held
    exact .inl ⟨own, (Option.some.inj held).symm⟩
  · rw [Function.update_of_ne own] at held
    exact .inr ⟨own, held⟩

/-- A slot that is free after an update is another one, and was free before it. -/
theorem free_update {n k : Nat} {new : Item} (free : Function.update slots n (some new) k = none) :
    k ≠ n ∧ slots k = none := by
  by_cases own : k = n
  · rw [own, Function.update_self] at free
    cases free
  · rw [Function.update_of_ne own] at free
    exact ⟨own, free⟩

end Openheim
