import Openheim.Library.Lines

/-
This library describes the lines of a text with their carriage returns, and the text that they make
up again.
-/

namespace Lines

/-- The raw lines of a text, given the part of the current line that is already read. -/
def rawLinesFrom (current : List Char) : List Char → List (List Char)
  | [] => if current.isEmpty then [] else [current]
  | char :: rest =>
      if char = '\n' then current :: rawLinesFrom [] rest
      else rawLinesFrom (current ++ [char]) rest

/-- The lines of a text as they stand in it, without the newlines between them. -/
def rawLines (text : List Char) : List (List Char) := rawLinesFrom [] text

/-- The last line has a newline. -/
def isEnded (text : List Char) : Bool := text.getLast? = some '\n'

/-- Lines with a newline between them, and after the last one on request. -/
def joinLines (lines : List (List Char)) (ended : Bool) : List Char :=
  ['\n'].intercalate lines ++ if ended then ['\n'] else []

/-- Each line that has a newline loses a carriage return in front of it. -/
def stripTerminated (ended : Bool) : List (List Char) → List (List Char)
  | [] => []
  | [last] => [if ended then stripCarriageReturn last else last]
  | line :: next :: rest => stripCarriageReturn line :: stripTerminated ended (next :: rest)

/-- A text that is not empty has a line. -/
theorem rawLinesFrom_ne_nil {current text : List Char} (some : current ≠ [] ∨ text ≠ []) :
    rawLinesFrom current text ≠ [] := by
  induction text generalizing current with
  | nil =>
      have present := some.resolve_right fun absent => absent rfl
      simp [rawLinesFrom, present]
  | cons char text ih =>
      rw [rawLinesFrom]
      split
      · exact List.cons_ne_nil _ _
      · exact ih (.inl (List.append_ne_nil_of_right_ne_nil _ (List.cons_ne_nil _ _)))

/-- Whether a text ends its last line does not depend on its front. -/
theorem isEnded_cons {char : Char} {text : List Char} (more : text ≠ []) :
    isEnded (char :: text) = isEnded text := by
  obtain ⟨next, rest, rfl⟩ := List.exists_cons_of_ne_nil more
  rw [isEnded, isEnded, List.getLast?_cons_cons]

/-- The first line is set apart by a line end. -/
theorem intercalate_cons {line : List Char} {rest : List (List Char)} (more : rest ≠ []) :
    ['\n'].intercalate (line :: rest) = line ++ '\n' :: ['\n'].intercalate rest := by
  obtain ⟨next, rest, rfl⟩ := List.exists_cons_of_ne_nil more
  simp [List.intercalate]

/-- The first line is joined to the others by a line end. -/
theorem joinLines_cons {line : List Char} {rest : List (List Char)} (more : rest ≠ [])
    (ended : Bool) :
    joinLines (line :: rest) ended = line ++ '\n' :: joinLines rest ended := by
  rw [joinLines, intercalate_cons more, joinLines, List.append_assoc, List.cons_append]

/-- Joining the lines gives the text back. -/
theorem joinLines_rawLinesFrom (current text : List Char) :
    joinLines (rawLinesFrom current text) (isEnded text) = current ++ text := by
  induction text generalizing current with
  | nil =>
      rw [rawLinesFrom]
      split
      · next empty =>
        rw [List.isEmpty_iff.mp empty]
        rfl
      · simp [joinLines, isEnded]
  | cons char text ih =>
      rw [rawLinesFrom]
      split
      · next newline =>
        subst newline
        by_cases more : text = []
        · subst more
          simp [joinLines, isEnded, rawLinesFrom]
        · rw [isEnded_cons more, joinLines_cons (rawLinesFrom_ne_nil (.inr more)), ih,
            List.nil_append]
      · next different =>
        by_cases more : text = []
        · subst more
          simp [joinLines, isEnded, rawLinesFrom, different]
        · rw [isEnded_cons more, ih, List.append_assoc, List.singleton_append]

/-- The raw lines make up the text. -/
theorem joinLines_rawLines (text : List Char) : joinLines (rawLines text) (isEnded text) = text :=
  joinLines_rawLinesFrom [] text

/-- The lines are the raw ones without the carriage returns that end them. -/
theorem linesFrom_eq (current text : List Char) :
    linesFrom current text = stripTerminated (isEnded text) (rawLinesFrom current text) := by
  induction text generalizing current with
  | nil =>
      rw [linesFrom, rawLinesFrom]
      split <;> rfl
  | cons char text ih =>
      rw [linesFrom, rawLinesFrom]
      split
      · next newline =>
        by_cases more : text = []
        · subst more newline
          rfl
        · rw [isEnded_cons more, ih]
          obtain ⟨next, rest, same⟩ :=
            List.exists_cons_of_ne_nil (@rawLinesFrom_ne_nil [] text (.inr more))
          rw [same, stripTerminated]
      · next different =>
        by_cases more : text = []
        · subst more
          simp [linesFrom, rawLinesFrom, stripTerminated, isEnded, different]
        · rw [isEnded_cons more, ih]

/-- The lines of a text are its raw lines, each without a carriage
return in front of its newline. -/
theorem lines_eq_stripTerminated (text : List Char) :
    lines text = stripTerminated (isEnded text) (rawLines text) :=
  linesFrom_eq [] text

@[simp] theorem length_stripTerminated (ended : Bool) (lines : List (List Char)) :
    (stripTerminated ended lines).length = lines.length := by
  induction lines with
  | nil => rfl
  | cons line rest ih =>
      cases rest with
      | nil => rfl
      | cons next rest =>
          rw [stripTerminated, List.length_cons, ih]
          rfl

/-- The line at this index has a newline. -/
def IsTerminated (text : List Char) (index : Nat) : Prop :=
  isEnded text = true ∨ index + 1 < (rawLines text).length

/-- Only a line that is ended loses its carriage return. -/
theorem getElem?_stripTerminated (ended : Bool) (lines : List (List Char)) (index : Nat) :
    (stripTerminated ended lines)[index]? =
      lines[index]?.map fun line => if ended = true ∨ index + 1 < lines.length then
        stripCarriageReturn line else line := by
  induction lines generalizing index with
  | nil => rfl
  | cons line rest ih =>
      cases rest with
      | nil =>
          cases index with
          | zero => simp [stripTerminated]
          | succ index => simp [stripTerminated]
      | cons next rest =>
          rw [stripTerminated]
          cases index with
          | zero => simp
          | succ index => simpa using ih index

/-- A line stays as it is when no carriage return ends it. -/
theorem stripCarriageReturn_eq_self_iff {line : List Char} :
    stripCarriageReturn line = line ↔ line.getLast? ≠ some '\r' := by
  rw [stripCarriageReturn]
  split
  · next last =>
    refine iff_of_false (fun same => ?_) (fun other => other last)
    have shorter := congrArg List.length same
    have some : line ≠ [] := by
      rintro rfl
      cases last
    have positive := List.length_pos_of_ne_nil some
    rw [List.length_dropLast] at shorter
    omega
  · next other => exact iff_of_true rfl other

/-- A line is read as it stands unless it has a carriage return in front of its newline. -/
theorem getElem?_lines_eq_iff (text : List Char) (index : Nat) :
    (lines text)[index]? = (rawLines text)[index]? ↔
      ∀ line, (rawLines text)[index]? = some line → IsTerminated text index →
        line.getLast? ≠ some '\r' := by
  rw [lines_eq_stripTerminated, getElem?_stripTerminated]
  cases present : (rawLines text)[index]? with
  | none => simp
  | some line =>
      rw [Option.map_some, Option.some_inj]
      split
      · next terminated =>
        rw [stripCarriageReturn_eq_self_iff]
        exact ⟨fun plain other same _ => Option.some.inj same ▸ plain,
          fun plain => plain line rfl terminated⟩
      · next open_ => exact iff_of_true rfl fun other _ terminated => absurd terminated open_

/-- No raw line has a line end in it. -/
theorem not_mem_rawLinesFrom {current text : List Char} (single : '\n' ∉ current) :
    ∀ line ∈ rawLinesFrom current text, '\n' ∉ line := by
  induction text generalizing current with
  | nil =>
      rw [rawLinesFrom]
      split
      · exact nofun
      · exact List.forall_mem_singleton.mpr single
  | cons char text ih =>
      rw [rawLinesFrom]
      split
      · exact List.forall_mem_cons.mpr ⟨single, ih List.not_mem_nil⟩
      · next different => exact ih (by simp [single, Ne.symm different])

theorem not_mem_rawLines (text : List Char) : ∀ line ∈ rawLines text, '\n' ∉ line :=
  not_mem_rawLinesFrom List.not_mem_nil

/-- No line has a line end in it. -/
theorem not_mem_lines (text : List Char) : ∀ line ∈ lines text, '\n' ∉ line := by
  intro line member
  obtain ⟨index, present⟩ := List.mem_iff_getElem?.mp member
  rw [lines_eq_stripTerminated, getElem?_stripTerminated] at present
  obtain ⟨raw, found, rfl⟩ := Option.map_eq_some_iff.mp present
  have single := not_mem_rawLines text raw (List.mem_of_getElem? found)
  split
  · rw [stripCarriageReturn]
    split
    · exact fun inside => single (List.dropLast_subset _ inside)
    · exact single
  · exact single

/-- Lines without newlines are read back from the text that they make up. -/
theorem joinLines_injective {first second : List (List Char)} {ended : Bool} (some : first ≠ [])
    (also : second ≠ [])
    (single : ∀ line ∈ first, '\n' ∉ line) (plain : ∀ line ∈ second, '\n' ∉ line)
    (same : joinLines first ended = joinLines second ended) : first = second := by
  have joined := List.append_cancel_right same
  rw [← List.splitOn_intercalate '\n' single some, joined, List.splitOn_intercalate '\n' plain also]

end Lines
