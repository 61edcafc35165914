import Openheim.Library.CharBoundary
import Openheim.Library.Machine
import Openheim.Library.Zipper

/-
This file follows `InputLine` of `src/tui/state.rs`, the prompt being typed, and shows that it works
on characters.
-/

namespace Openheim.Tui
open Utf8

/-- The text is the bytes of a string, and the cursor is a byte offset. -/
structure InputLine where
  text : List UInt8
  cursor : Nat
  deriving DecidableEq, Repr

/-- `String::insert_str`, which panics when the index is no character boundary. -/
def insertBytes (text : List UInt8) (index : Nat) (bytes : List UInt8) : Option (List UInt8) :=
  if isBoundary text index then some (text.take index ++ bytes ++ text.drop index) else none

/-- `String::drain` with all that it takes out dropped; it panics when an end of the range is no
character boundary. -/
def drain (text : List UInt8) (first last : Nat) : Option (List UInt8) :=
  if first ≤ last ∧ last ≤ text.length ∧ isBoundary text first ∧ isBoundary text last then
    some (text.take first ++ text.drop last)
  else none

namespace InputLine

def empty : InputLine := ⟨[], 0⟩

def clear (_ : InputLine) : InputLine := ⟨[], 0⟩

def insert (line : InputLine) (char : Char) : Option InputLine :=
  (insertBytes line.text line.cursor (String.utf8EncodeChar char)).map fun text =>
    ⟨text, line.cursor + char.utf8Size⟩

/-- Inserts at the cursor and moves the cursor past it. -/
def insertStr (line : InputLine) (inserted : String) : Option InputLine :=
  (insertBytes line.text line.cursor (encode inserted.toList)).map fun text =>
    ⟨text, line.cursor + (encode inserted.toList).length⟩

def backspace (line : InputLine) : Option InputLine :=
  if 0 < line.cursor then
    let prev := floorBoundary line.text (line.cursor - 1)
    (drain line.text prev line.cursor).map fun text => ⟨text, prev⟩
  else some line

def delete (line : InputLine) : Option InputLine :=
  if line.cursor < line.text.length then
    let next := ceilBoundary line.text (line.cursor + 1)
    (drain line.text line.cursor next).map fun text => { line with text }
  else some line

def left (line : InputLine) : InputLine :=
  if 0 < line.cursor then { line with cursor := floorBoundary line.text (line.cursor - 1) }
  else line

def right (line : InputLine) : InputLine :=
  if line.cursor < line.text.length then
    { line with cursor := ceilBoundary line.text (line.cursor + 1) } else line

def home (line : InputLine) : InputLine := { line with cursor := 0 }

def toEnd (line : InputLine) : InputLine := { line with cursor := line.text.length }

end InputLine

/-- What the user does to the line. -/
inductive InputOp where
  | insert (char : Char)
  | insertStr (inserted : String)
  | backspace
  | delete
  | left
  | right
  | home
  | toEnd
  | clear
  deriving DecidableEq, Repr

/-- A step that panics has no successor. -/
def InputLine.apply (line : InputLine) : InputOp → Option InputLine
  | .insert char => line.insert char
  | .insertStr inserted => line.insertStr inserted
  | .backspace => line.backspace
  | .delete => line.delete
  | .left => some line.left
  | .right => some line.right
  | .home => some line.home
  | .toEnd => some line.toEnd
  | .clear => some line.clear

def inputMachine : Machine InputLine InputOp where
  start line := line = .empty
  step := InputLine.apply

/-- The same on the characters before and after the cursor. -/
def edit (zipper : Zipper Char) : InputOp → Zipper Char
  | .insert char => zipper.insert [char]
  | .insertStr inserted => zipper.insert inserted.toList
  | .backspace => zipper.deleteBefore
  | .delete => zipper.deleteAfter
  | .left => zipper.moveLeft
  | .right => zipper.moveRight
  | .home => zipper.moveToStart
  | .toEnd => zipper.moveToEnd
  | .clear => .empty

/-- The text is that of all characters, and the cursor stands after the bytes of those before it. -/
structure Refines (line : InputLine) (zipper : Zipper Char) : Prop where
  text : line.text = encode zipper.whole
  cursor : line.cursor = (encode zipper.before).length

section Refinement
variable {line : InputLine} {before after : List Char}

theorem refines_iff :
    Refines line ⟨before, after⟩ ↔
    line = ⟨encode before ++ encode after, (encode before).length⟩ := by
  obtain ⟨text, cursor⟩ := line
  constructor
  · rintro ⟨rfl, rfl⟩
    rw [Zipper.whole, encode_append]
  · intro same
    cases same
    exact ⟨(encode_append before after).symm, rfl⟩

/-- Bytes are inserted between two texts. -/
theorem insertBytes_between (before after : List Char) (bytes : List UInt8) :
    insertBytes (encode before ++ encode after) (encode before).length bytes =
      some (encode before ++ bytes ++ encode after) := by
  rw [insertBytes, if_pos (isBoundary_encode before after), List.take_left, List.drop_left]

/-- A text between two others is drained. -/
theorem drain_between (before middle after : List Char) :
    drain (encode before ++ encode middle ++ encode after) (encode before).length
      (encode before ++ encode middle).length = some (encode before ++ encode after) := by
  have first : isBoundary (encode before ++ encode middle ++ encode after)
      (encode before).length = true := by
    rw [List.append_assoc, ← encode_append]
    exact isBoundary_encode before (middle ++ after)
  have last : isBoundary (encode before ++ encode middle ++ encode after)
      (encode before ++ encode middle).length =
      true := by
    rw [← encode_append]
    exact isBoundary_encode (before ++ middle) after
  have ordered : (encode before).length ≤ (encode before ++ encode middle).length := by
    rw [List.length_append]
    exact Nat.le_add_right _ _
  have inside : (encode before ++ encode middle).length ≤
      (encode before ++ encode middle ++ encode after).length := by
    exact (List.prefix_append (encode before ++ encode middle) (encode after)).length_le
  rw [drain, if_pos ⟨ordered, inside, first, last⟩, List.drop_left, List.append_assoc,
    List.take_left]

theorem refines_insert (refines : Refines line ⟨before, after⟩) (items : List Char) :
    ∃ text, insertBytes line.text line.cursor (encode items) = some text ∧
      Refines ⟨text, line.cursor + (encode items).length⟩ ⟨before ++ items, after⟩ := by
  obtain rfl := refines_iff.mp refines
  refine ⟨_, insertBytes_between before after (encode items), refines_iff.mpr ?_⟩
  rw [encode_append, List.length_append]

/-- Before the first character there is nothing to go back over. -/
theorem backspace_refines (refines : Refines line ⟨before, after⟩) :
    ∃ next, line.backspace = some next ∧ Refines next ⟨before.dropLast, after⟩ := by
  obtain rfl := refines_iff.mp refines
  rcases List.eq_nil_or_concat' before with rfl | ⟨front, char, rfl⟩
  · exact ⟨_, rfl, refines⟩
  · have positive : 0 < (encode (front ++ [char])).length := encode_length_pos (by simp)
    have middle := drain_between front [char] after
    rw [← encode_append] at middle
    rw [InputLine.backspace]
    dsimp only
    rw [if_pos positive, floorBoundary_before, middle, List.dropLast_concat]
    exact ⟨_, rfl, refines_iff.mpr rfl⟩

theorem left_refines (refines : Refines line ⟨before, after⟩) :
    Refines line.left ⟨before.dropLast, before.getLast?.toList ++ after⟩ := by
  obtain rfl := refines_iff.mp refines
  rcases List.eq_nil_or_concat' before with rfl | ⟨front, char, rfl⟩
  · exact refines
  · have positive : 0 < (encode (front ++ [char])).length := encode_length_pos (by simp)
    rw [InputLine.left]
    dsimp only
    rw [if_pos positive, floorBoundary_before, List.dropLast_concat, List.getLast?_concat]
    refine refines_iff.mpr ?_
    simp

theorem delete_refines (refines : Refines line ⟨before, after⟩) :
    ∃ next, line.delete = some next ∧ Refines next ⟨before, after.tail⟩ := by
  obtain rfl := refines_iff.mp refines
  cases after with
  | nil =>
      refine ⟨_, ?_, refines⟩
      rw [InputLine.delete, encode_nil, List.append_nil, if_neg (Nat.lt_irrefl _)]
  | cons char rest =>
      have more : (encode before).length < (encode before ++ encode (char :: rest)).length := by
        have positive : 0 < (encode (char :: rest)).length :=
          encode_length_pos (List.cons_ne_nil char rest)
        rw [List.length_append]
        omega
      have middle := drain_between before [char] rest
      have whole : encode before ++ encode [char] ++ encode rest = encode before ++
        encode (char :: rest) := by simp
      rw [whole, ← encode_append before [char]] at middle
      rw [InputLine.delete, if_pos more, ceilBoundary_after]
      dsimp only
      rw [middle]
      exact ⟨_, rfl, refines_iff.mpr rfl⟩

theorem right_refines (refines : Refines line ⟨before, after⟩) :
    Refines line.right ⟨before ++ after.head?.toList, after.tail⟩ := by
  obtain rfl := refines_iff.mp refines
  cases after with
  | nil =>
      rw [InputLine.right, encode_nil, List.append_nil, if_neg (Nat.lt_irrefl _)]
      simpa using refines
  | cons char rest =>
      have more : (encode before).length < (encode before ++ encode (char :: rest)).length := by
        have positive : 0 < (encode (char :: rest)).length :=
          encode_length_pos (List.cons_ne_nil char rest)
        rw [List.length_append]
        omega
      rw [InputLine.right, if_pos more, ceilBoundary_after]
      refine refines_iff.mpr ?_
      simp

/-- No operation panics, and each does on the line what it does on the characters. -/
theorem apply_refines (line : InputLine) (zipper : Zipper Char) (op : InputOp)
    (refines : Refines line zipper) :
    ∃ next, inputMachine.step line op = some next ∧ Refines next (edit zipper op) := by
  obtain ⟨before, after⟩ := zipper
  cases op with
  | insert char =>
      obtain ⟨text, inserted, kept⟩ := refines_insert refines [char]
      have size : (encode [char]).length = char.utf8Size := by simp
      have bytes : encode [char] = String.utf8EncodeChar char := by simp
      rw [size] at kept
      rw [bytes] at inserted
      refine ⟨_, ?_, kept⟩
      show line.insert char = _
      rw [InputLine.insert, inserted]
      rfl
  | insertStr inserted =>
      obtain ⟨text, there, kept⟩ := refines_insert refines inserted.toList
      refine ⟨_, ?_, kept⟩
      show line.insertStr inserted = _
      rw [InputLine.insertStr, there]
      rfl
  | backspace => exact backspace_refines refines
  | delete => exact delete_refines refines
  | left => exact ⟨_, rfl, left_refines refines⟩
  | right => exact ⟨_, rfl, right_refines refines⟩
  | home => exact ⟨_, rfl, refines.text, rfl⟩
  | toEnd =>
      refine ⟨_, rfl, ?_, congrArg List.length refines.text⟩
      rw [edit, Zipper.whole_moveToEnd]
      exact refines.text
  | clear => exact ⟨_, rfl, rfl, rfl⟩

/-- After any operations the text and the cursor are those of the characters before and after the
cursor, no operation has panicked, and the cursor stands on a character boundary of the text. -/
theorem input_refines_zipper (ops : List InputOp) :
    ∃ line, inputMachine.exec .empty ops = some line ∧ Refines line (ops.foldl edit .empty) ∧
      isBoundary line.text line.cursor = true ∧ line.cursor ≤ line.text.length := by
  have start : Refines .empty .empty := ⟨rfl, rfl⟩
  obtain ⟨line, executed, refines⟩ := Machine.exec_follows apply_refines ops start
  refine ⟨line, executed, refines, ?_⟩
  obtain rfl := refines_iff.mp refines
  refine ⟨isBoundary_encode _ _, ?_⟩
  rw [List.length_append]
  exact Nat.le_add_right _ _

/-- The cursor goes back over a character of three bytes, and the one before it is deleted. -/
example : inputMachine.exec .empty [.insertStr "aé日", .left, .backspace] =
    some ⟨encode ['a', '日'], 1⟩ := by decide

end Refinement

end Openheim.Tui
