import Mathlib.Algebra.Group.Nat.Defs
import Openheim.Core.Error
import Openheim.Library.BufRead
import Openheim.Library.Utf8Prefix

/-
This file follows `src/tools/read_file.rs`: how a call of `read_file` reads some lines of a file and
which note it puts after them.
-/

namespace Openheim.Tools
open BufRead

/-- Most bytes of file text that one call returns. -/
def maxReadBytes : Nat := 100 * 1024

/-- How far a local read scans past the lines shown to count the lines of the file. -/
def maxCountScanBytes : Nat := 64 * 1024 * 1024

def newline : UInt8 := 10

/-- What the end of a skipped line finds: whether anything was consumed,
unless the budget ran out first. -/
structure Skip where
  consumed : Option Bool
  reader : Reader UInt8
  budget : Nat

def skipLineFrom (consumed : Bool) (reader : Reader UInt8) (budget : Nat) : Skip :=
  if reader.fillBuf = [] then ⟨some consumed, reader, budget⟩
  else if budget = 0 then ⟨none, reader, budget⟩
  else
    let window := reader.fillBuf.take budget
    match window.idxOf? newline with
    | some index => ⟨some true, reader.consume (index + 1), budget - (index + 1)⟩
    | none => skipLineFrom true (reader.consume window.length) (budget - window.length)
termination_by reader.left.length
decreasing_by
  rename_i unfinished _
  rw [Reader.left_consume, List.length_drop, List.length_take]
  have buffered := List.length_pos_of_ne_nil unfinished
  have inside := reader.fillBuf_prefix.length_le
  omega

/-- Consumes the rest of the current line within a budget of bytes. -/
def skipLine (reader : Reader UInt8) (budget : Nat) : Skip := skipLineFrom false reader budget

/-- Passes over lines until the line with this number is next. -/
def skipTo (first begun : Nat) (reader : Reader UInt8) (budget : Nat) : Nat × Reader UInt8 :=
  if begun + 1 < first then
    match skipLine reader budget with
    | ⟨some true, rest, budget⟩ => skipTo first (begun + 1) rest budget
    | ⟨_, rest, _⟩ => (begun, rest)
  else (begun, reader)
termination_by first - begun

/-- What the loop over the lines has when it ends. -/
structure Scan where
  out : List UInt8
  shown : Nat
  begun : Nat
  cutLine : Bool
  midLine : Bool
  reader : Reader UInt8

/-- Takes lines until the limit or the byte cap. A line that does not fit is cut when it is the
first one, and left for the next call otherwise. -/
def readLines (limit : Option Nat) (maxBytes : Nat) (out : List UInt8) (shown begun : Nat)
    (reader : Reader UInt8) :
    Scan :=
  if room : limit.all (shown < ·) ∧ out.length < maxBytes then
    let read := reader.readUntil newline (maxBytes - out.length)
    if ended : read.1 = [] then ⟨out, shown, begun, false, false, read.2⟩
    else if read.1.getLast? = some newline ∨ read.2.fillBuf = [] then
      readLines limit maxBytes (out ++ read.1) (shown + 1) (begun + 1) read.2
    else if shown = 0 then ⟨out ++ read.1, shown, begun + 1, true, true, read.2⟩
    else ⟨out, shown, begun + 1, false, true, read.2⟩
  else ⟨out, shown, begun, false, false, reader⟩
termination_by maxBytes - out.length
decreasing_by
  have grown := List.length_pos_of_ne_nil ended
  rw [List.length_append]
  exact Nat.sub_lt_sub_left room.2 (Nat.lt_add_of_pos_right grown)

def notUtf8 : Error := .toolExecutionError "the file is not valid UTF-8 text"

/-- A cut line may end partway through a character. -/
def decodeScan (scan : Scan) : Except Error (List Char) :=
  match Utf8.decode scan.out with
  | some text => .ok text
  | none =>
      if scan.cutLine ∧ Utf8.errorLen scan.out = none then
        match Utf8.decode (scan.out.take (Utf8.validUpTo scan.out)) with
        | some text => .ok text
        | none => .error notUtf8
      else .error notUtf8

/-- What skipping a line comes to: the end of the input, the line, or
the end of the budget in it. -/
inductive Skipped (consumed : Bool) (reader : Reader UInt8) (budget : Nat) : Skip → Prop where
  | ended (empty : reader.left = []) :
      Skipped consumed reader budget ⟨some consumed, reader, budget⟩
  | line (rest : Reader UInt8) (nonempty : reader.left ≠ [])
      (fits : (firstLine newline reader.left).length ≤ budget)
      (after : rest.left = afterLine newline reader.left) :
      Skipped consumed reader budget ⟨some true, rest,
        budget - (firstLine newline reader.left).length⟩
  | short (rest : Reader UInt8) (remaining : Nat)
      (long : budget < (firstLine newline reader.left).length) :
      Skipped consumed reader budget ⟨none, rest, remaining⟩

theorem skipLineFrom_spec (consumed : Bool) (reader : Reader UInt8) (budget : Nat) :
    Skipped consumed reader budget (skipLineFrom consumed reader budget) := by
  fun_induction skipLineFrom consumed reader budget with
  | case1 consumed reader budget finished => exact .ended (reader.fillBuf_eq_nil.mp finished)
  | case2 consumed reader unfinished =>
      have nonempty := fun empty => unfinished (reader.fillBuf_eq_nil.mpr empty)
      exact .short _ _ (List.length_pos_of_ne_nil (firstLine_ne_nil nonempty))
  | case3 consumed reader budget unfinished _ window index found =>
      obtain ⟨before, after, split, size, plain⟩ := split_of_idxOf? found
      obtain ⟨tail, whole⟩ := (List.take_prefix budget reader.fillBuf).trans reader.fillBuf_prefix
      have left : reader.left = before ++ newline :: (after ++ tail) := by
        rw [← whole, ← List.cons_append, ← List.append_assoc, ← split]
      have line : firstLine newline reader.left = before ++ [newline] := by
        rw [left, (firstLine_append plain _).1, (firstLine_newline _).1]
      have rest : reader.left.drop (index + 1) = afterLine newline reader.left := by
        rw [left, (firstLine_append plain _).2, (firstLine_newline _).2, ← size, ← List.drop_drop,
          List.drop_left, List.drop_one, List.tail_cons]
      have length : (firstLine newline reader.left).length = index + 1 := by
        rw [line, List.length_append, size, List.length_singleton]
      have fits : index + 1 ≤ budget := by
        have inside := List.length_take_le budget reader.fillBuf
        rw [show reader.fillBuf.take budget = window from rfl, split, List.length_append, size,
          List.length_cons] at inside
        omega
      have nonempty : reader.left ≠ [] := fun empty => unfinished (reader.fillBuf_eq_nil.mpr empty)
      have spec :=
        @Skipped.line consumed reader budget (reader.consume (index + 1)) nonempty (length ▸ fits)
        (by rw [Reader.left_consume, rest])
      rwa [length] at spec
  | case4 consumed reader budget unfinished exhausted window absent ih =>
      have plain : newline ∉ window := List.idxOf?_eq_none_iff.mp absent
      obtain ⟨tail, whole⟩ := (List.take_prefix budget reader.fillBuf).trans reader.fillBuf_prefix
      have left : reader.left = window ++ tail := whole.symm
      have next : (reader.consume window.length).left = tail := by
        rw [Reader.left_consume, left, List.drop_left]
      have line : (firstLine newline reader.left).length =
          window.length + (firstLine newline tail).length := by
        rw [left, (firstLine_append plain tail).1, List.length_append]
      have after : afterLine newline reader.left = afterLine newline tail := by
        rw [left, (firstLine_append plain tail).2]
      have inside : window.length ≤ budget := List.length_take_le budget reader.fillBuf
      have nonempty : reader.left ≠ [] := fun empty => unfinished (reader.fillBuf_eq_nil.mpr empty)
      generalize skipLineFrom true (reader.consume window.length) (budget - window.length) =
        skip at ih ⊢
      cases ih with
      | ended empty =>
          rw [next] at empty
          rw [empty] at line after next
          have spec := @Skipped.line consumed reader budget (reader.consume window.length) nonempty
            (by rw [line]; exact inside) (next.trans after.symm)
          rwa [line] at spec
      | line rest _ fits same =>
          rw [next] at fits same
          have spec :=
            @Skipped.line consumed reader budget rest nonempty (by rw [line]; omega)
              (same.trans after.symm)
          rw [line, ← Nat.sub_sub] at spec
          rwa [next]
      | short rest remaining long =>
          rw [next] at long
          exact .short rest remaining (by rw [line]; omega)

/-- A line that is skipped takes something from the input. -/
theorem skipLine_consumes {reader rest : Reader UInt8} {budget after : Nat}
    (skipped : skipLine reader budget = ⟨some true, rest, after⟩) :
    rest.left.length < reader.left.length := by
  have spec := skipLineFrom_spec false reader budget
  rw [skipLine] at skipped
  rw [skipped] at spec
  cases spec with
  | line _ nonempty fits after => exact after ▸ afterLine_length_lt nonempty

/-- The lines of the rest of the input are added to those counted before. -/
def countRest (count : Nat) (reader : Reader UInt8) (budget : Nat) : Option Nat :=
  match skipped : skipLine reader budget with
  | ⟨some true, rest, budget⟩ => countRest (count + 1) rest budget
  | ⟨some false, _, _⟩ => some count
  | ⟨none, _, _⟩ => none
termination_by reader.left.length
decreasing_by exact skipLine_consumes skipped

/-- The lines begun so far and those left in the input. In the middle of a line, the
rest of it is skipped first. -/
def countLines (reader : Reader UInt8) (begun : Nat) (midLine : Bool) : Option Nat :=
  if midLine then
    match skipLine reader maxCountScanBytes with
    | ⟨none, _, _⟩ => none
    | ⟨some _, rest, budget⟩ => countRest begun rest budget
  else countRest begun reader maxCountScanBytes

/-- Some lines of a file. -/
structure Excerpt where
  text : List Char
  first : Nat
  shown : Nat
  cutLine : Bool
  more : Bool
  total : Option Nat
  deriving DecidableEq, Repr

/-- Reads lines from the first one asked for. Skipping the lines before it has
the largest budget there is. -/
def readExcerpt (reader : Reader UInt8) (first : Nat) (limit : Option Nat) (maxBytes : Nat)
    (countAll : Bool) :
    Except Error Excerpt := do
  let (begun, reader) := skipTo first 0 reader (2 ^ 64 - 1)
  let scan := readLines limit maxBytes [] 0 begun reader
  let text ← decodeScan scan
  return {
    text, first
    shown := scan.shown
    cutLine := scan.cutLine
    more := scan.midLine || !scan.reader.fillBuf.isEmpty
    total := if countAll then countLines scan.reader scan.begun scan.midLine else none }

/-- What stands after the text of a page. -/
inductive Note where
  | pastEnd (first : Nat) (total : Option Nat)
  | cut (first : Nat) (total : Option Nat) (next : Option Nat)
  | more (first last : Nat) (total : Option Nat) (next : Nat)
  deriving DecidableEq, Repr

def ofTotal (total : Option Nat) : String :=
  (total.map fun count => " of " ++ toString count).getD ""

def Note.toText : Note → String
  | .pastEnd first (some total) =>
      "[offset " ++ toString first ++ " is past the end of the file, which has " ++
        toString total ++ " lines]"
  | .pastEnd first none => "[nothing at offset " ++ toString first ++ ": the file ends before it]"
  | .cut first total next =>
      "[line " ++ toString first ++ ofTotal total ++ " is longer than " ++ toString maxReadBytes ++
        " bytes; only its start is shown" ++
        (next.map fun offset => "; call again with offset=" ++ toString offset ++
          " for the lines after it").getD "" ++
        "]"
  | .more first last total next =>
      "[lines " ++ toString first ++ "–" ++ toString last ++ ofTotal total ++
        " shown; call again with offset=" ++ toString next ++ " to read on]"

/-- The offset that a note says to call again with. -/
def Note.offset : Note → Option Nat
  | .pastEnd _ _ => none
  | .cut _ _ next => next
  | .more _ _ _ next => some next

/-- The note on how to read on when the file continues past the text. -/
def Excerpt.note (excerpt : Excerpt) : Option Note :=
  if excerpt.text = [] ∧ excerpt.more = false ∧ 1 < excerpt.first then
    some (.pastEnd excerpt.first excerpt.total)
  else if excerpt.cutLine then
    some (.cut excerpt.first excerpt.total
      (if excerpt.total.all (excerpt.first < ·) then some (excerpt.first + 1) else none))
  else if excerpt.more then
    let last := excerpt.first + excerpt.shown - 1
    some (.more excerpt.first last excerpt.total (last + 1))
  else none

/-- The text with its note on a line of its own. -/
def render (excerpt : Excerpt) : List Char :=
  match excerpt.note with
  | none => excerpt.text
  | some note =>
      if excerpt.text = [] ∨ excerpt.text.getLast? = some '\n' then
        excerpt.text ++ note.toText.toList
      else excerpt.text ++ '\n' :: note.toText.toList

/-- The decoded arguments, and what the JSON library says of them, with its position,
if a number is out of range. -/
structure ReadFileArgs where
  offset : Option Nat
  limit : Option Nat
  refusal : String
  deriving DecidableEq, Repr

/-- The numbers are read as 32-bit ones. -/
def ReadFileArgs.parse (args : ReadFileArgs) : Except Error ReadFileArgs :=
  match (args.offset.toList ++ args.limit.toList).find? (2 ^ 32 ≤ ·) with
  | none => .ok args
  | some _ => .error (.parseError ("failed to parse arguments: " ++ args.refusal))

/-- A call reads what the client answers to its line range, and the local file
if there is no such client. -/
def readPage (client : Option Nat → Option Nat → Option (Except Error (List Char)))
    (file : Reader UInt8) (args : ReadFileArgs) : Except Error Excerpt := do
  let args ← args.parse
  if args.offset = some 0 ∨ args.limit = some 0 then
    .error (.invalidArgument "offset and limit must be at least 1")
  else
    let first := args.offset.getD 1
    match client args.offset args.limit with
    | some result =>
        let text ← result
        let excerpt ← readExcerpt (.ofList (Utf8.encode text)) 1 none maxReadBytes false
        return { excerpt with first, more := excerpt.more || args.limit.any (excerpt.shown = ·) }
    | none => readExcerpt file first args.limit maxReadBytes true

/-- What a call returns. -/
def executeReadFile (client : Option Nat → Option Nat → Option (Except Error (List Char)))
    (file : Reader UInt8)
    (args : ReadFileArgs) : Except Error (List Char) := (readPage client file args).map render

end Openheim.Tools
