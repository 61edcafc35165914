import Openheim.Core.Json
import Openheim.Library.KeyOrder
import Mathlib.Data.String.Basic

/-
This file shows that values with sorted keys are equal if and only if the values are the same up to
the order of keys.
-/

namespace Openheim

namespace Json

section Same
variable (sameNumber : String → String → Prop)

mutual

/-- The values are equal up to the order of keys. -/
inductive Same : Json → Json → Prop where
  | null : Same .null .null
  | bool (value : Bool) : Same (.bool value) (.bool value)
  | number {a b : String} (equal : sameNumber a b) : Same (.number a) (.number b)
  | string (content : String) : Same (.string content) (.string content)
  | array {xs ys : List Json} (items : SameItems xs ys) : Same (.array xs) (.array ys)
  | object {xs moved ys : List (String × Json)} (entries : SameEntries xs moved)
      (permuted : moved.Perm ys) :
      Same (.object xs) (.object ys)

inductive SameItems : List Json → List Json → Prop where
  | nil : SameItems [] []
  | cons {x y : Json} {xs ys : List Json} (item : Same x y) (rest : SameItems xs ys) :
      SameItems (x :: xs) (y :: ys)

inductive SameEntries : List (String × Json) → List (String × Json) → Prop where
  | nil : SameEntries [] []
  | cons {key : String} {x y : Json} {xs ys : List (String × Json)} (value : Same x y)
      (rest : SameEntries xs ys) :
      SameEntries ((key, x) :: xs) ((key, y) :: ys)

end

end Same

section Mono
variable {stricter sameNumber : String → String → Prop}

mutual

/-- Values with the same numbers are the same under any looser reading of numbers. -/
theorem Same.mono (implies : ∀ a b, stricter a b → sameNumber a b) {v w : Json}
    (same : v.Same stricter w) :
    v.Same sameNumber w := by
  cases same with
  | null => exact .null
  | bool value => exact .bool value
  | number equal => exact .number (implies _ _ equal)
  | string content => exact .string content
  | array items => exact .array (items.mono implies)
  | object entries permuted => exact .object (entries.mono implies) permuted

theorem SameItems.mono (implies : ∀ a b, stricter a b → sameNumber a b) {xs ys : List Json}
    (same : SameItems stricter xs ys) : SameItems sameNumber xs ys := by
  cases same with
  | nil => exact .nil
  | cons item rest => exact .cons (item.mono implies) (rest.mono implies)

theorem SameEntries.mono (implies : ∀ a b, stricter a b → sameNumber a b)
    {xs ys : List (String × Json)}
    (same : SameEntries stricter xs ys) : SameEntries sameNumber xs ys := by
  cases same with
  | nil => exact .nil
  | cons value rest => exact .cons (value.mono implies) (rest.mono implies)

end

end Mono

mutual

/-- No object of the value has a key twice. -/
def Distinct : Json → Prop
  | .object entries => (entries.map Prod.fst).Nodup ∧ DistinctEntries entries
  | .array items => DistinctItems items
  | _ => True

def DistinctItems : List Json → Prop
  | [] => True
  | item :: rest => item.Distinct ∧ DistinctItems rest

def DistinctEntries : List (String × Json) → Prop
  | [] => True
  | (_, value) :: rest => value.Distinct ∧ DistinctEntries rest

end

/-- The entries are sorted one by one. -/
theorem sortedEntries_eq_map (entries : List (String × Json)) :
    sortedEntries entries = entries.map fun entry => (entry.1, entry.2.sortedKeys) := by
  induction entries with
  | nil => rfl
  | cons entry rest ih => rw [sortedEntries, ih, List.map_cons]

/-- Sorting the values of an object leaves its keys. -/
theorem sortedEntries_keys (entries : List (String × Json)) :
    (sortedEntries entries).map Prod.fst = entries.map Prod.fst := by
  rw [sortedEntries_eq_map, List.map_map]
  rfl

/-- Permuted entries are sorted to permuted entries. -/
theorem sortedEntries_perm {first second : List (String × Json)} (permuted : first.Perm second) :
    (sortedEntries first).Perm (sortedEntries second) := by
  rw [sortedEntries_eq_map, sortedEntries_eq_map]
  exact permuted.map _

mutual

/-- The same values have one sorted form. -/
theorem Same.sortedKeys_eq {v w : Json} (same : Same (· = ·) v w) (distinct : v.Distinct) :
    v.sortedKeys = w.sortedKeys := by
  cases same with
  | null => rfl
  | bool value => rfl
  | number equal => rw [equal]
  | string content => rfl
  | array items =>
      rw [Distinct] at distinct
      rw [sortedKeys, sortedKeys, items.sortedItems_eq distinct]
  | object entries permuted =>
      rw [Distinct] at distinct
      rw [sortedKeys, sortedKeys, entries.sortedEntries_eq distinct.2]
      refine congrArg Json.object (KeyOrder.insertionSort_eq_of_perm ?_
        (sortedEntries_perm permuted))
      rw [← entries.sortedEntries_eq distinct.2, sortedEntries_keys]
      exact distinct.1

/-- The same items have one sorted form. -/
theorem SameItems.sortedItems_eq {xs ys : List Json} (same : SameItems (· = ·) xs ys)
    (distinct : DistinctItems xs) :
    sortedItems xs = sortedItems ys := by
  cases same with
  | nil => rfl
  | cons item rest =>
      rw [DistinctItems] at distinct
      rw [sortedItems, sortedItems, item.sortedKeys_eq distinct.1, rest.sortedItems_eq distinct.2]

/-- The same entries have one sorted form. -/
theorem SameEntries.sortedEntries_eq {xs ys : List (String × Json)}
    (same : SameEntries (· = ·) xs ys)
    (distinct : DistinctEntries xs) : sortedEntries xs = sortedEntries ys := by
  cases same with
  | nil => rfl
  | cons value rest =>
      rw [DistinctEntries] at distinct
      rw [sortedEntries, sortedEntries, value.sortedKeys_eq distinct.1,
        rest.sortedEntries_eq distinct.2]

end

mutual

/-- Values with one sorted form are the same. -/
theorem same_of_sortedKeys_eq {v w : Json} (equal : v.sortedKeys = w.sortedKeys) :
    Same (· = ·) v w := by
  cases v with
  | null => cases w <;> simp only [sortedKeys, reduceCtorEq] at equal; exact .null
  | bool value =>
    cases w <;> simp only [sortedKeys, reduceCtorEq, bool.injEq] at equal; exact equal ▸ .bool value
  | number digits =>
    cases w <;> simp only [sortedKeys, reduceCtorEq, number.injEq] at equal; exact .number equal
  | string content =>
      cases w <;> simp only [sortedKeys, reduceCtorEq, string.injEq] at equal
      exact equal ▸ .string content
  | array xs =>
      cases w <;> simp only [sortedKeys, reduceCtorEq, array.injEq] at equal
      exact .array (sameItems_of_sortedItems_eq equal)
  | object xs =>
      cases w <;> simp only [sortedKeys, reduceCtorEq, object.injEq] at equal
      rename_i ys
      have permuted := KeyOrder.perm_of_insertionSort_eq equal
      rw [sortedEntries_eq_map ys] at permuted
      obtain ⟨moved, images, moves⟩ :=
        (iff_of_eq (congrFun₂ (List.eq_map_comp_perm _) _ _)).mpr permuted
      exact .object
        (sameEntries_of_sortedEntries_eq (images.trans (sortedEntries_eq_map moved).symm)) moves

/-- Items with one sorted form are the same. -/
theorem sameItems_of_sortedItems_eq {xs ys : List Json} (equal : sortedItems xs = sortedItems ys) :
    SameItems (· = ·) xs ys := by
  cases xs with
  | nil => cases ys <;> simp only [sortedItems, reduceCtorEq] at equal; exact .nil
  | cons x xs =>
      cases ys <;> simp only [sortedItems, reduceCtorEq, List.cons.injEq] at equal
      exact .cons (same_of_sortedKeys_eq equal.1) (sameItems_of_sortedItems_eq equal.2)

/-- Entries with one sorted form are the same. -/
theorem sameEntries_of_sortedEntries_eq {xs ys : List (String × Json)}
    (equal : sortedEntries xs = sortedEntries ys) :
    SameEntries (· = ·) xs ys := by
  cases xs with
  | nil => cases ys <;> simp only [sortedEntries, reduceCtorEq] at equal; exact .nil
  | cons entry xs =>
      obtain ⟨key, x⟩ := entry
      cases ys with
      | nil => simp only [sortedEntries, reduceCtorEq] at equal
      | cons other ys =>
          obtain ⟨otherKey, y⟩ := other
          simp only [sortedEntries, List.cons.injEq, Prod.mk.injEq] at equal
          obtain ⟨⟨rfl, value⟩, rest⟩ := equal
          exact .cons (same_of_sortedKeys_eq value) (sameEntries_of_sortedEntries_eq rest)

end

/-- Values without repeated keys are the same exactly when their sorted forms are equal. -/
theorem sortedKeys_eq_iff {v w : Json} (distinct : v.Distinct) :
    v.sortedKeys = w.sortedKeys ↔ Same (· = ·) v w :=
  ⟨same_of_sortedKeys_eq, fun same => same.sortedKeys_eq distinct⟩

end Json

end Openheim
