import Mathlib.Data.List.DropRight

/-
This library describes how a text splits into lines and which characters are white space.
-/

namespace Lines

/-- The code points with the Unicode property `White_Space`. -/
def isWhitespace (char : Char) : Bool :=
  let point := char.toNat
  (9 ≤ point && point ≤ 13) || point == 0x20 || point == 0x85 || point == 0xA0 || point == 0x1680 ||
    (0x2000 ≤ point && point ≤ 0x200A) || point == 0x2028 || point == 0x2029 || point == 0x202F ||
    point == 0x205F || point == 0x3000

/-- A text is blank when trimming leaves nothing of it. -/
def isBlank (text : List Char) : Bool := text.all isWhitespace

/-- A text without the white space at both ends. -/
def trim (text : List Char) : List Char := (text.dropWhile isWhitespace).rdropWhile isWhitespace

/-- The words of a text are what stands between its white space. -/
def splitWhitespace (text : List Char) : List (List Char) :=
  (text.splitOnP isWhitespace).filter fun word => !word.isEmpty

/-- Trimming keeps a text without white space. -/
theorem trim_of_plain {text : List Char} (plain : ∀ char ∈ text, isWhitespace char = false) :
    trim text = text := by
  have front : text.dropWhile isWhitespace = text := by
    rw [List.dropWhile_eq_self_iff]
    intro nonempty
    rw [plain _ (List.getElem_mem nonempty)]
    decide
  rw [trim, front, List.rdropWhile_eq_self_iff]
  intro nonempty
  rw [plain _ (List.getLast_mem nonempty)]
  decide

/-- A terminated line loses one carriage return before its newline. -/
def stripCarriageReturn (line : List Char) : List Char :=
  if line.getLast? = some '\r' then line.dropLast else line

/-- The lines of a text, given the part of the current line that is already read. -/
def linesFrom (current : List Char) : List Char → List (List Char)
  | [] => if current.isEmpty then [] else [current]
  | char :: rest =>
      if char = '\n' then stripCarriageReturn current :: linesFrom [] rest
      else linesFrom (current ++ [char]) rest

/-- Lines end at each newline, and the last one may lack it. -/
def lines (text : List Char) : List (List Char) := linesFrom [] text

theorem linesFrom_append (current : List Char) {line : List Char} (rest : List Char)
    (single : '\n' ∉ line) :
    linesFrom current (line ++ rest) = linesFrom (current ++ line) rest := by
  induction line generalizing current with
  | nil => simp
  | cons char line ih =>
      have different : char ≠ '\n' := fun same => single (by simp [same])
      rw [List.cons_append, linesFrom, if_neg different,
        ih _ (fun member => single (by simp [member])), List.append_assoc, List.singleton_append]

/-- A newline ends a line that does not end in a carriage return. -/
theorem lines_terminated {line rest : List Char} (single : '\n' ∉ line)
    (plain : line.getLast? ≠ some '\r') :
    lines (line ++ '\n' :: rest) = line :: lines rest := by
  rw [lines, linesFrom_append [] _ single, List.nil_append, linesFrom, if_pos rfl,
    stripCarriageReturn, if_neg plain]
  rfl

/-- The end of the text ends its last line. -/
theorem lines_unterminated {line : List Char} (single : '\n' ∉ line) (nonempty : line ≠ []) :
    lines line = [line] := by
  have read := linesFrom_append [] [] single
  rw [List.append_nil, List.nil_append] at read
  rw [lines, read, linesFrom]
  simp [nonempty]

/-- A text is terminated when it is empty or ends in a newline. -/
def Terminated (text : List Char) : Prop := text = [] ∨ text.getLast? = some '\n'

theorem linesFrom_append_of_getLast {text : List Char} (current rest : List Char)
    (ended : text.getLast? = some '\n') :
    linesFrom current (text ++ rest) = linesFrom current text ++ lines rest := by
  induction text generalizing current with
  | nil => cases ended
  | cons char text ih =>
      rw [List.cons_append, linesFrom, linesFrom]
      cases text with
      | nil =>
          obtain rfl : char = '\n' := Option.some.inj ended
          rfl
      | cons next text =>
          rw [List.getLast?_cons_cons] at ended
          split
          · rw [ih [] ended, List.cons_append]
          · rw [ih _ ended]

/-- What follows a terminated text begins a line of its own. -/
theorem lines_append {text : List Char} (ended : Terminated text) (rest : List Char) :
    lines (text ++ rest) = lines text ++ lines rest := by
  rcases ended with rfl | ended
  · rfl
  · exact linesFrom_append_of_getLast [] rest ended

@[simp] theorem lines_nil : lines [] = [] := rfl

/-- A text whose first character is visible is not blank. -/
theorem isBlank_cons {char : Char} {text : List Char} (visible : isWhitespace char = false) :
    isBlank (char :: text) = false := by
  simp [isBlank, visible]

end Lines
