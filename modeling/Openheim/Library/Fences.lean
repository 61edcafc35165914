import Mathlib.Data.List.Infix

/-
This library describes a search for the first line of a text that begins with a fence. A line after
the first one begins where a separator ends, so the search is for a separator with the fence after
it.
-/

namespace Fences
variable {α : Type*}

section Lines
variable {separator : α} {fence line rest : List α} {lines : List (List α)}

/-- The lines after the first one, each with the separator that it comes after. -/
def later (separator : α) (lines : List (List α)) : List α := lines.flatMap (separator :: ·)

theorem intercalate_cons (separator : α) (line : List α) (lines : List (List α)) :
    [separator].intercalate (line :: lines) = line ++ later separator lines := by
  induction lines generalizing line with
  | nil => simp [later, List.intercalate]
  | cons next rest ih =>
      have step : [separator].intercalate (line :: next :: rest) =
          line ++ separator :: [separator].intercalate (next :: rest) := by
        simp [List.intercalate]
      rw [step, ih, later, later, List.flatMap_cons, List.cons_append]

/-- A line does not begin with the fence because of what comes after it. -/
theorem not_prefix_append (plain : separator ∉ fence) (free : ¬ fence <+: line)
    (ends : ∀ first ∈ rest.head?, first = separator) : ¬ fence <+: line ++ rest := by
  intro here
  rcases List.prefix_or_prefix_of_prefix here (List.prefix_append line rest) with inside | longer
  · exact free inside
  · obtain ⟨more, rfl⟩ := longer
    cases more with
    | nil => exact free (by rw [List.append_nil])
    | cons first others =>
        obtain ⟨tail, same⟩ := (List.prefix_append_right_inj line).mp here
        have starts : first = separator := ends first (by rw [← same]; rfl)
        exact plain (List.mem_append_right line (starts ▸ List.mem_cons_self))

theorem later_append_head (ends : ∀ first ∈ rest.head?, first = separator) :
    ∀ first ∈ (later separator lines ++ rest).head?, first = separator := by
  cases lines with
  | nil => exact ends
  | cons line more =>
      intro first here
      exact (Option.some.inj here).symm

end Lines

variable [DecidableEq α]

/-- The text before the first occurrence of a pattern, and the text from it on. -/
def cut (pattern : List α) (text : List α) : Option (List α × List α) :=
  if pattern.isPrefixOf text then some ([], text)
  else
    match text with
    | [] => none
    | first :: rest => (cut pattern rest).map fun parts => (first :: parts.1, parts.2)

section Cuts
variable {pattern text before after : List α} {first : α}

theorem cut_here (rest : List α) : cut pattern (pattern ++ rest) = some ([], pattern ++ rest) := by
  rw [cut.eq_def, if_pos (List.isPrefixOf_iff_prefix.mpr (List.prefix_append pattern rest))]

theorem cut_cons (absent : ¬ pattern <+: first :: text) :
    cut pattern (first :: text) = (cut pattern text).map fun parts =>
      (first :: parts.1, parts.2) := by
  rw [cut, if_neg fun here => absent (List.isPrefixOf_iff_prefix.mp here)]

/-- The two parts make up the text, and the second one begins with the pattern. -/
theorem cut_some (found : cut pattern text = some (before, after)) :
    before ++ after = text ∧ pattern <+: after := by
  induction text generalizing before with
  | nil =>
      rw [cut] at found
      split at found
      · next here =>
        cases found
        exact ⟨rfl, List.isPrefixOf_iff_prefix.mp here⟩
      · cases found
  | cons first rest ih =>
      by_cases here : pattern <+: first :: rest
      · obtain ⟨more, same⟩ := here
        rw [← same, cut_here] at found
        cases found
        exact ⟨same, List.prefix_append pattern more⟩
      · rw [cut_cons here] at found
        obtain ⟨⟨front, back⟩, inner, same⟩ := Option.map_eq_some_iff.mp found
        cases same
        obtain ⟨whole, starts⟩ := ih inner
        exact ⟨congrArg (first :: ·) whole, starts⟩

end Cuts

section Search
variable {separator : α} {fence line rest : List α} {lines : List (List α)}

/-- No separator, so the fence is not searched for within a line. -/
theorem cut_line (single : separator ∉ line) (rest : List α) :
    cut (separator :: fence) (line ++ rest) =
      (cut (separator :: fence) rest).map fun parts => (line ++ parts.1, parts.2) := by
  induction line with
  | nil => simp
  | cons first more ih =>
      rw [List.mem_cons, not_or] at single
      have absent : ¬ separator :: fence <+: first :: (more ++ rest) := by
        intro here
        exact single.1 (List.cons_prefix_cons.mp here).1
      rw [List.cons_append, cut_cons absent, ih single.2, Option.map_map]
      rfl

/-- The search passes by lines that do not begin with the fence. -/
theorem cut_later (plain : separator ∉ fence)
    (free : ∀ line ∈ lines, separator ∉ line ∧ ¬ fence <+: line)
    (ends : ∀ first ∈ rest.head?, first = separator) :
    cut (separator :: fence) (later separator lines ++ rest) =
      (cut (separator :: fence) rest).map fun parts =>
        (later separator lines ++ parts.1, parts.2) := by
  induction lines with
  | nil => simp [later]
  | cons line more ih =>
      obtain ⟨⟨single, apart⟩, others⟩ := List.forall_mem_cons.mp free
      have absent :
          ¬ separator :: fence <+: separator :: (line ++ (later separator more ++ rest)) := by
        intro here
        exact not_prefix_append plain apart (later_append_head ends)
          (List.cons_prefix_cons.mp here).2
      have text : later separator (line :: more) ++ rest =
          separator :: (line ++ (later separator more ++ rest)) := by
        simp [later]
      rw [text, cut_cons absent, cut_line single, ih others, Option.map_map, Option.map_map]
      simp [later, Function.comp_def]

/-- The lines before the fence are found as they are. -/
theorem cut_block (plain : separator ∉ fence) (single : separator ∉ line)
    (free : ∀ line ∈ lines, separator ∉ line ∧ ¬ fence <+: line) (rest : List α) :
    cut (separator :: fence) ([separator].intercalate (line :: lines) ++
        (separator :: fence ++ rest)) =
      some ([separator].intercalate (line :: lines), separator :: fence ++ rest) := by
  have ends : ∀ first ∈ (separator :: fence ++ rest).head?, first = separator := by
    intro first here
    exact (Option.some.inj here).symm
  rw [intercalate_cons, List.append_assoc, cut_line single, cut_later plain free ends, cut_here]
  simp

/-- Nothing is found when no line after the first one begins with the fence. -/
theorem cut_none (plain : separator ∉ fence) (single : separator ∉ line)
    (free : ∀ line ∈ lines, separator ∉ line ∧ ¬ fence <+: line) :
    cut (separator :: fence) ([separator].intercalate (line :: lines)) = none := by
  have nowhere : cut (separator :: fence) [] = none := rfl
  have passed : cut (separator :: fence) (later separator lines ++ []) =
      (cut (separator :: fence) []).map fun parts => (later separator lines ++ parts.1, parts.2) :=
    cut_later plain free fun _ absent => nomatch absent
  rw [List.append_nil, nowhere] at passed
  rw [intercalate_cons, cut_line single, passed]
  rfl

end Search

end Fences
