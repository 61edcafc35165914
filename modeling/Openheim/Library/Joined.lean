import Mathlib.Data.List.Basic

/-
This file joins the texts that some items of a list carry.
-/

namespace Joined
variable {Item : Type*} (piece : Item → Option String)

def joined (items : List Item) : String := String.join (items.filterMap piece)

@[simp] theorem joined_nil : joined piece [] = "" := rfl

@[simp] theorem joined_cons (item : Item) (rest : List Item) :
    joined piece (item :: rest) = (piece item).getD "" ++ joined piece rest := by
  cases found : piece item with
  | none =>
    rw [joined, List.filterMap_cons_none found, Option.getD_none, String.empty_append, joined]
  | some text =>
    rw [joined, List.filterMap_cons_some found, String.join_cons, Option.getD_some, joined]

@[simp] theorem joined_append (first second : List Item) :
    joined piece (first ++ second) = joined piece first ++ joined piece second := by
  rw [joined, List.filterMap_append, String.join_append, joined, joined]

end Joined
