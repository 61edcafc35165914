import Mathlib.Data.List.Perm.Basic
import Mathlib.Data.List.Sort

/-
This file shows that entries with distinct keys have only one order by key.
-/

namespace KeyOrder
variable {Key Value : Type*} [LinearOrder Key] [DecidableRel fun a b : Key × Value => a.1 ≤ b.1]
  {first second : List (Key × Value)}

theorem insertionSort_eq_of_perm (distinct : (first.map Prod.fst).Nodup)
    (same : first.Perm second) :
    first.insertionSort (fun a b => a.1 ≤ b.1) = second.insertionSort fun a b => a.1 ≤ b.1 := by
  have total : Std.Total fun a b : Key × Value => a.1 ≤ b.1 := ⟨fun a b => le_total a.1 b.1⟩
  have trans : IsTrans (Key × Value) fun a b => a.1 ≤ b.1 := ⟨fun _ _ _ => le_trans⟩
  refine List.Perm.eq_of_pairwise ?_ (List.pairwise_insertionSort _ first)
    (List.pairwise_insertionSort _ second)
    ((List.perm_insertionSort _ first).trans (same.trans (List.perm_insertionSort _ second).symm))
  intro a b inFirst inSecond below above
  have member : a ∈ first := (List.mem_insertionSort _).mp inFirst
  have other : b ∈ first := same.mem_iff.mpr ((List.mem_insertionSort _).mp inSecond)
  exact List.inj_on_of_nodup_map distinct member other (le_antisymm below above)

theorem perm_of_insertionSort_eq
    (same : first.insertionSort (fun a b => a.1 ≤ b.1) = second.insertionSort fun a b =>
      a.1 ≤ b.1) :
    first.Perm second :=
  (List.perm_insertionSort _ first).symm.trans (same ▸ List.perm_insertionSort _ second)

end KeyOrder
