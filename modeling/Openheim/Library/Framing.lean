import Mathlib.Data.List.Basic

/-
This library describes a sequence that is split into records by a separator and arrives in pieces.
-/

namespace Framing
variable {α : Type*} [DecidableEq α]

/-- The part before the first separator and the part after it, if there is one. -/
def pop (separator : α) : List α → Option (List α × List α)
  | [] => none
  | item :: rest =>
      if item = separator then some ([], rest)
      else (pop separator rest).map fun (record, tail) => (item :: record, tail)

/-- The records that a separator ends, given the part of the current record that is already read,
and the last record, which none ends. -/
def scan (separator : α) (current : List α) : List α → List (List α) × List α
  | [] => ([], current)
  | item :: rest =>
      if item = separator then (current :: (scan separator [] rest).1, (scan separator [] rest).2)
      else scan separator (current ++ [item]) rest

/-- The records that a separator ends. -/
def records (separator : α) (items : List α) : List (List α) := (scan separator [] items).1

/-- What comes after the last separator. -/
def unfinished (separator : α) (items : List α) : List α := (scan separator [] items).2

/-- All records, the unfinished one last. -/
def split (separator : α) (items : List α) : List (List α) :=
  records separator items ++ [unfinished separator items]

/-- A scan goes on from the record that the first part leaves unfinished. -/
theorem scan_append (separator : α) (current first second : List α) :
    scan separator current (first ++ second) =
      ((scan separator current first).1 ++
          (scan separator (scan separator current first).2 second).1,
        (scan separator (scan separator current first).2 second).2) := by
  induction first generalizing current with
  | nil => rfl
  | cons item rest ih =>
      rw [List.cons_append, scan, scan]
      split
      · rw [ih]
        rfl
      · exact ih _

section Pop
variable {separator : α}

theorem pop_length {items record tail : List α}
    (popped : pop separator items = some (record, tail)) :
    tail.length < items.length := by
  induction items generalizing record with
  | nil => cases popped
  | cons item rest ih =>
      rw [pop] at popped
      split at popped
      · cases popped
        exact Nat.lt_succ_self _
      · obtain ⟨⟨_, _⟩, found, same⟩ := Option.map_eq_some_iff.mp popped
        cases same
        exact Nat.lt_succ_of_lt (ih found)

/-- Without a separator there is no record. -/
theorem scan_of_pop_none {current items : List α} (none_left : pop separator items = none) :
    scan separator current items = ([], current ++ items) := by
  induction items generalizing current with
  | nil => rw [scan, List.append_nil]
  | cons item rest ih =>
      rw [pop] at none_left
      split at none_left
      · cases none_left
      · next different =>
        rw [scan, if_neg different, ih (Option.map_eq_none_iff.mp none_left), List.append_assoc,
          List.singleton_append]

/-- The first separator ends the first record. -/
theorem scan_of_pop {current items record tail : List α}
    (popped : pop separator items = some (record, tail)) :
    scan separator current items = ((current ++ record) :: records separator tail,
        unfinished separator tail) := by
  induction items generalizing current record with
  | nil => cases popped
  | cons item rest ih =>
      rw [pop] at popped
      split at popped
      · next same =>
        cases popped
        rw [scan, if_pos same, List.append_nil]
        rfl
      · next different =>
        obtain ⟨⟨_, _⟩, found, same⟩ := Option.map_eq_some_iff.mp popped
        cases same
        rw [scan, if_neg different, ih found, List.append_assoc, List.singleton_append]

theorem records_of_pop_none {items : List α} (none_left : pop separator items = none) :
    records separator items = [] := by
  rw [records, scan_of_pop_none none_left]

theorem unfinished_of_pop_none {items : List α} (none_left : pop separator items = none) :
    unfinished separator items = items := by
  rw [unfinished, scan_of_pop_none none_left, List.nil_append]

theorem records_of_pop {items record tail : List α}
    (popped : pop separator items = some (record, tail)) :
    records separator items = record :: records separator tail := by
  rw [records, scan_of_pop popped, List.nil_append]

theorem unfinished_of_pop {items record tail : List α}
    (popped : pop separator items = some (record, tail)) :
    unfinished separator items = unfinished separator tail := by
  rw [unfinished, scan_of_pop popped]

end Pop

/-- An unfinished record holds no separator. -/
theorem unfinished_unfinished (separator : α) (items : List α) :
    scan separator [] (unfinished separator items) = ([], unfinished separator items) := by
  suffices open_record : ∀ current, scan separator [] current = ([], current) →
      scan separator [] (scan separator current items).2 =
        ([], (scan separator current items).2) from
    open_record [] rfl
  induction items with
  | nil => exact fun current plain => plain
  | cons item rest ih =>
      intro current plain
      rw [scan]
      split
      · exact ih [] rfl
      · next different =>
        refine ih _ ?_
        rw [scan_append, plain, scan, if_neg different, scan]
        rfl

theorem records_append (separator : α) (first second : List α) :
    records separator (first ++ second) =
      records separator first ++ records separator (unfinished separator first ++ second) := by
  have whole := congrArg Prod.fst (scan_append separator [] first second)
  have later := congrArg Prod.fst (scan_append separator [] (unfinished separator first) second)
  rw [unfinished_unfinished] at later
  exact whole.trans (congrArg (records separator first ++ ·) later.symm)

theorem unfinished_append (separator : α) (first second : List α) :
    unfinished separator (first ++ second) =
      unfinished separator (unfinished separator first ++ second) := by
  have whole := congrArg Prod.snd (scan_append separator [] first second)
  have later := congrArg Prod.snd (scan_append separator [] (unfinished separator first) second)
  rw [unfinished_unfinished] at later
  exact whole.trans later.symm

/-- A separator at the end leaves nothing unfinished. -/
theorem unfinished_concat (separator : α) (items : List α) :
    unfinished separator (items ++ [separator]) = [] := by
  rw [unfinished, scan_append, scan, if_pos rfl, scan]

theorem split_append (separator : α) (first second : List α) :
    split separator (first ++ second) =
      records separator first ++ split separator (unfinished separator first ++ second) := by
  unfold split
  rw [records_append, unfinished_append, List.append_assoc]

/-- The part of the current record that is already read begins some record. -/
theorem scan_extends (separator : α) (current items : List α) :
    ∃ record ∈ (scan separator current items).1 ++ [(scan separator current items).2],
      current <+: record := by
  induction items generalizing current with
  | nil => exact ⟨current, by simp [scan], List.prefix_refl current⟩
  | cons item rest ih =>
      rw [scan]
      split
      · exact ⟨current, by simp, List.prefix_refl current⟩
      · obtain ⟨record, member, longer⟩ := ih (current ++ [item])
        exact ⟨record, member, (List.prefix_append current [item]).trans longer⟩

/-- What a first part leaves unfinished begins some record of the whole. -/
theorem unfinished_prefix (separator : α) (first second : List α) :
    ∃ record ∈ split separator (first ++ second), unfinished separator first <+: record := by
  obtain ⟨record, member, longer⟩ := scan_extends separator (unfinished separator first) second
  refine ⟨record, ?_, longer⟩
  unfold split records unfinished
  rw [scan_append, List.append_assoc]
  exact List.mem_append_right _ member

end Framing
