import Mathlib.Data.List.Infix

/-
This library describes where a pattern occurs in a text and which of its occurrences a search from
left to right without overlaps finds.
-/

namespace Matches
variable {α : Type*}

/-- The pattern stands at this position of the text. -/
def Occurs (pattern text : List α) (position : Nat) : Prop := pattern <+: text.drop position

/-- No two occurrences of the pattern overlap. -/
def Disjoint (pattern text : List α) : Prop :=
  ∀ first second, Occurs pattern text first → Occurs pattern text second → first < second →
    first + pattern.length ≤ second

/-- Every two occurrences of the pattern overlap. -/
def Clustered (pattern text : List α) : Prop :=
  ∀ first second, Occurs pattern text first → Occurs pattern text second →
    second < first + pattern.length

theorem occurs_append (pattern before after : List α) :
    Occurs pattern (before ++ pattern ++ after) before.length := by
  rw [Occurs, List.append_assoc, List.drop_left]
  exact List.prefix_append pattern after

/-- An occurrence is what separates the text before it from the text after it. -/
theorem Occurs.split {pattern text : List α} {position : Nat}
    (occurs : Occurs pattern text position) :
    text = text.take position ++ pattern ++ text.drop (position + pattern.length) := by
  obtain ⟨rest, whole⟩ := occurs
  have after : text.drop (position + pattern.length) = rest := by
    rw [← List.drop_drop, ← whole, List.drop_left]
  rw [after, List.append_assoc, whole, List.take_append_drop]

theorem Occurs.lt {pattern text : List α} {position : Nat} (occurs : Occurs pattern text position)
    (nonempty : pattern ≠ []) : position < text.length := by
  by_contra past
  rw [Occurs, List.drop_eq_nil_of_le (Nat.not_lt.mp past), List.prefix_nil] at occurs
  exact nonempty occurs

/-- An occurrence after the part in front of the text is one in the text. -/
theorem occurs_append_left {pattern before text : List α} {position : Nat} :
    Occurs pattern (before ++ text) (before.length + position) ↔ Occurs pattern text position := by
  rw [Occurs, Occurs, List.drop_append, List.drop_of_length_le (Nat.le_add_right _ _),
    Nat.add_sub_cancel_left, List.nil_append]

theorem infix_iff_occurs {pattern text : List α} :
    pattern <:+: text ↔ ∃ position, Occurs pattern text position := by
  constructor
  · rintro ⟨before, after, rfl⟩
    exact ⟨before.length, occurs_append pattern before after⟩
  · rintro ⟨position, occurs⟩
    exact occurs.isInfix.trans (List.drop_suffix position text).isInfix

variable [BEq α] [LawfulBEq α]

/-- The pieces of the text between the matches that a search from left to right without overlaps
finds. The first argument counts the elements of the last match that are still to be skipped. -/
def piecesFrom (pattern : List α) : Nat → List α → List (List α)
  | _, [] => [[]]
  | skip + 1, _ :: rest => piecesFrom pattern skip rest
  | 0, first :: rest =>
      if pattern.isPrefixOf (first :: rest) then [] :: piecesFrom pattern (pattern.length - 1) rest
      else (piecesFrom pattern 0 rest).modifyHead (first :: ·)

def pieces (pattern text : List α) : List (List α) := piecesFrom pattern 0 text

omit [LawfulBEq α] in
theorem piecesFrom_eq_drop (pattern : List α) (skip : Nat) (text : List α) :
    piecesFrom pattern skip text = pieces pattern (text.drop skip) := by
  induction text generalizing skip with
  | nil =>
      rw [List.drop_nil]
      cases skip with
      | zero => rfl
      | succ skip => rfl
  | cons first rest ih =>
      cases skip with
      | zero => rfl
      | succ skip => exact ih skip

section Search
variable {pattern : List α} (nonempty : pattern ≠ [])
include nonempty

omit [BEq α] [LawfulBEq α] in
/-- A search from left to right goes on after a match, and by one element where there is none. -/
theorem search_induction {motive : List α → Prop} (nil : motive [])
    (found : ∀ rest, motive rest → motive (pattern ++ rest))
    (moved : ∀ first rest, ¬ pattern <+: first :: rest → motive rest → motive (first :: rest))
    (text : List α) :
    motive text := by
  induction size : text.length using Nat.strong_induction_on generalizing text with
  | _ _ ih =>
    cases text with
    | nil => exact nil
    | cons first rest =>
        by_cases here : pattern <+: first :: rest
        · obtain ⟨after, whole⟩ := here
          rw [← whole]
          refine found after (ih after.length ?_ after rfl)
          rw [← size, ← whole, List.length_append]
          exact Nat.lt_add_of_pos_left (List.length_pos_of_ne_nil nonempty)
        · refine moved first rest here (ih rest.length ?_ rest rfl)
          rw [← size, List.length_cons]
          exact Nat.lt_succ_self _

theorem pieces_found (rest : List α) :
    pieces pattern (pattern ++ rest) = [] :: pieces pattern rest := by
  obtain ⟨first, more, rfl⟩ := List.exists_cons_of_ne_nil nonempty
  have here : (first :: more).isPrefixOf (first :: (more ++ rest)) = true :=
    List.isPrefixOf_iff_prefix.mpr (List.prefix_append (first :: more) rest)
  rw [List.cons_append, pieces, piecesFrom, if_pos here, piecesFrom_eq_drop, List.length_cons,
    Nat.add_sub_cancel, List.drop_left]

omit nonempty in
theorem pieces_moved {first : α} {rest : List α} (absent : ¬ pattern <+: first :: rest) :
    pieces pattern (first :: rest) = (pieces pattern rest).modifyHead (first :: ·) := by
  have elsewhere : ¬ pattern.isPrefixOf (first :: rest) = true :=
    fun here => absent (List.isPrefixOf_iff_prefix.mp here)
  rw [pieces, piecesFrom, if_neg elsewhere, pieces]

theorem pieces_ne_nil (text : List α) : pieces pattern text ≠ [] := by
  induction text using search_induction nonempty with
  | nil => exact List.cons_ne_nil _ _
  | found rest ih =>
      rw [pieces_found nonempty]
      exact List.cons_ne_nil _ _
  | moved first rest absent ih =>
      rw [pieces_moved absent]
      simpa using ih

/-- The pieces and the matches between them make up the text. -/
theorem intercalate_pieces (text : List α) : pattern.intercalate (pieces pattern text) = text := by
  induction text using search_induction nonempty with
  | nil => rfl
  | found rest ih =>
      rw [pieces_found nonempty, List.intercalate_cons_of_ne_nil (pieces_ne_nil nonempty rest), ih,
        List.nil_append]
  | moved first rest absent ih =>
      obtain ⟨piece, more, split⟩ := List.exists_cons_of_ne_nil (pieces_ne_nil nonempty rest)
      rw [split] at ih
      rw [pieces_moved absent, split, List.modifyHead_cons, List.intercalate_cons_cons_left, ih]

/-- The first piece ends before every occurrence. -/
theorem pieces_leading (text : List α) {piece : List α} {more : List (List α)}
    (split : pieces pattern text = piece :: more) :
    ∀ position < piece.length, ¬ Occurs pattern text position := by
  induction text using search_induction nonempty generalizing piece more with
  | nil =>
      intro position small occurs
      exact absurd (occurs.lt nonempty) (Nat.not_lt_zero _)
  | found rest ih =>
      rw [pieces_found nonempty] at split
      cases split
      exact fun position small => absurd small (Nat.not_lt_zero _)
  | moved first rest absent ih =>
      obtain ⟨before, after, tail⟩ := List.exists_cons_of_ne_nil (pieces_ne_nil nonempty rest)
      rw [pieces_moved absent, tail, List.modifyHead_cons] at split
      cases split
      intro position small
      cases position with
      | zero => exact absent
      | succ position => exact ih tail position (Nat.lt_of_succ_lt_succ small)

/-- No piece has an occurrence of its own. -/
theorem pieces_free (text : List α) : ∀ piece ∈ pieces pattern text, ¬ pattern <:+: piece := by
  induction text using search_induction nonempty with
  | nil =>
      intro piece member inside
      obtain rfl := List.mem_singleton.mp member
      exact nonempty (List.infix_nil.mp inside)
  | found rest ih =>
      rw [pieces_found nonempty, List.forall_mem_cons]
      exact ⟨fun inside => nonempty (List.infix_nil.mp inside), ih⟩
  | moved first rest absent ih =>
      obtain ⟨piece, more, split⟩ := List.exists_cons_of_ne_nil (pieces_ne_nil nonempty rest)
      rw [split, List.forall_mem_cons] at ih
      rw [pieces_moved absent, split, List.modifyHead_cons, List.forall_mem_cons]
      refine ⟨fun inside => ?_, ih.2⟩
      rcases List.infix_cons_iff.mp inside with front | later
      · have whole := intercalate_pieces nonempty rest
        have start : piece <+: rest := by
          rw [split] at whole
          rw [← whole]
          cases more with
          | nil =>
              rw [List.intercalate_singleton]
          | cons next more =>
              rw [List.intercalate_cons_cons, List.append_assoc]
              exact List.prefix_append _ _
        exact absent (front.trans (List.cons_prefix_cons.mpr ⟨rfl, start⟩))
      · exact ih.1 later

/-- A text without an occurrence is one piece. -/
theorem pieces_eq_singleton_iff (text : List α) :
    (pieces pattern text).length = 1 ↔ ∀ position, ¬ Occurs pattern text position := by
  have whole := intercalate_pieces nonempty text
  constructor
  · intro single position occurs
    obtain ⟨piece, split⟩ := List.length_eq_one_iff.mp single
    have free := pieces_free nonempty text piece (by rw [split]; exact List.mem_singleton_self _)
    rw [split, List.intercalate_singleton] at whole
    exact free (infix_iff_occurs.mpr ⟨position, whole ▸ occurs⟩)
  · intro absent
    obtain ⟨piece, more, split⟩ := List.exists_cons_of_ne_nil (pieces_ne_nil nonempty text)
    cases more with
    | nil => rw [split, List.length_singleton]
    | cons next more =>
        rw [split, List.intercalate_cons_cons] at whole
        exact absurd (whole ▸ occurs_append pattern piece _) (absent piece.length)

/-- A text with one match has occurrences, and all of them overlap that match. -/
theorem pieces_eq_pair_iff (text : List α) :
    (pieces pattern text).length = 2 ↔ (∃ position, Occurs pattern text position) ∧
      Clustered pattern text := by
  have whole := intercalate_pieces nonempty text
  constructor
  · intro pair
    obtain ⟨before, after, split⟩ := List.length_eq_two.mp pair
    have leading := pieces_leading nonempty text split
    have free := pieces_free nonempty text after (by rw [split]; simp)
    rw [split, List.intercalate_cons_cons, List.intercalate_singleton] at whole
    refine ⟨⟨before.length, whole ▸ occurs_append pattern before after⟩,
      fun first second one other => ?_⟩
    have late : before.length ≤ first := by
      by_contra early
      exact leading first (Nat.not_le.mp early) one
    have inside : second < before.length + pattern.length := by
      by_contra past
      obtain ⟨position, rfl⟩ := Nat.exists_eq_add_of_le (Nat.not_lt.mp past)
      rw [← whole, ← List.length_append, occurs_append_left] at other
      exact free (infix_iff_occurs.mpr ⟨position, other⟩)
    exact inside.trans_le (Nat.add_le_add_right late _)
  · rintro ⟨⟨position, occurs⟩, clustered⟩
    obtain ⟨piece, more, split⟩ := List.exists_cons_of_ne_nil (pieces_ne_nil nonempty text)
    rw [split] at whole ⊢
    match more with
    | [] =>
        have single : (pieces pattern text).length = 1 := by rw [split, List.length_singleton]
        exact absurd occurs ((pieces_eq_singleton_iff nonempty text).mp single position)
    | [_] => rfl
    | next :: third :: rest =>
        -- two matches do not overlap
        rw [List.intercalate_cons_cons, List.intercalate_cons_cons] at whole
        have one : Occurs pattern text piece.length := whole ▸ occurs_append pattern piece _
        have other : Occurs pattern text ((piece ++ pattern).length + next.length) := by
          rw [← whole, occurs_append_left]
          exact occurs_append pattern next _
        have close := clustered _ _ one other
        rw [List.length_append] at close
        exact absurd close (Nat.not_lt.mpr (Nat.le_add_right _ _))

end Search

end Matches
