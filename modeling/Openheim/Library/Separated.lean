import Mathlib.Data.List.Basic

/-
This file says when two texts that a separator divides are equal: they are divided at one place, or
one first part goes on with the separator and the beginning of the other's second part.
-/

namespace Separated
variable {α : Type*} {separator : α} {a b c d : List α}

theorem append_eq_cases (equal : a ++ separator :: b = c ++ separator :: d) :
    (a = c ∧ b = d) ∨ (∃ rest, c = a ++ separator :: rest ∧ b = rest ++ separator :: d) ∨
      ∃ rest, a = c ++ separator :: rest ∧ d = rest ++ separator :: b := by
  rcases List.append_eq_append_iff.mp equal with ⟨between, longer, tail⟩ | ⟨between, longer, tail⟩
  · cases between with
    | nil => exact .inl ⟨by rw [longer, List.append_nil], (List.cons.inj tail).2⟩
    | cons first rest =>
        obtain ⟨rfl, same⟩ := List.cons.inj tail
        exact .inr (.inl ⟨rest, longer, same⟩)
  · cases between with
    | nil => exact .inl ⟨by rw [longer, List.append_nil], (List.cons.inj tail).2.symm⟩
    | cons first rest =>
        obtain ⟨rfl, same⟩ := List.cons.inj tail
        exact .inr (.inr ⟨rest, longer, same⟩)

/-- The pieces between separators have none. -/
theorem not_mem_piece [BEq α] [LawfulBEq α] (separator : α) (text : List α) :
    ∀ piece ∈ text.splitOn separator, separator ∉ piece := by
  induction text with
  | nil => exact List.forall_mem_singleton.mpr List.not_mem_nil
  | cons first rest ih =>
      rw [List.splitOn_cons_eq_if_modifyHead]
      split
      · exact List.forall_mem_cons.mpr ⟨List.not_mem_nil, ih⟩
      · next other =>
        obtain ⟨head, later, same⟩ :=
          List.exists_cons_of_ne_nil (List.splitOn_ne_nil separator rest)
        rw [same] at ih ⊢
        obtain ⟨plain, others⟩ := List.forall_mem_cons.mp ih
        refine List.forall_mem_cons.mpr ⟨?_, others⟩
        rw [List.mem_cons, not_or]
        exact ⟨fun equal => other (beq_iff_eq.mpr equal.symm), plain⟩

/-- Texts that a colon divides. -/
theorem colon_cases {a b c d : String} (equal : a ++ ":" ++ b = c ++ ":" ++ d) :
    (a = c ∧ b = d) ∨ (∃ rest, c = a ++ ":" ++ rest ∧ b = rest ++ ":" ++ d) ∨
      ∃ rest, a = c ++ ":" ++ rest ∧ d = rest ++ ":" ++ b := by
  have divided (x y z : String) : x = y ++ ":" ++ z ↔ x.toList = y.toList ++ ':' :: z.toList := by
    rw [← String.toList_inj, String.toList_append, String.toList_append, List.append_assoc]
    rfl
  have lists := (divided _ _ _).mp equal
  rw [String.toList_append, String.toList_append, List.append_assoc] at lists
  rcases append_eq_cases lists with ⟨first, second⟩ | ⟨rest, longer, tail⟩ | ⟨rest, longer, tail⟩
  · exact .inl ⟨String.toList_inj.mp first, String.toList_inj.mp second⟩
  · refine .inr (.inl ⟨String.ofList rest, ?_, ?_⟩) <;> rwa [divided, String.toList_ofList]
  · refine .inr (.inr ⟨String.ofList rest, ?_, ?_⟩) <;> rwa [divided, String.toList_ofList]

end Separated
