import Openheim.Core.Error
import Openheim.Library.Utf8

/-
This file follows `src/tools/edit_file.rs`, `write_file.rs` and the whole-file read of
`read_file.rs`. The content of a file is a list of bytes, and a missing file has none.
-/

namespace Openheim.Tools

/-- Largest file that `edit_file` works on. -/
def maxEditBytes : Nat := 10 * 1024 * 1024

/-- Where a text starts with a pattern, the replacement stands for it and the search goes on after
it. The first argument counts the characters of the last match that are still to be skipped. -/
def replaceFrom (old new : List Char) : Nat → List Char → List Char
  | _, [] => []
  | skip + 1, _ :: rest => replaceFrom old new skip rest
  | 0, char :: rest =>
      if old.isPrefixOf (char :: rest) then new ++ replaceFrom old new (old.length - 1) rest
      else char :: replaceFrom old new 0 rest

/-- Replaces every match of a pattern, from left to right and without overlaps. -/
def replace (content old new : List Char) : List Char := replaceFrom old new 0 content

/-- Replaces the first match of a pattern. -/
def replacen (old new : List Char) : List Char → List Char
  | [] => []
  | char :: rest =>
      if old.isPrefixOf (char :: rest) then new ++ (char :: rest).drop old.length
      else char :: replacen old new rest

/-- The number of matches from left to right without overlaps. -/
def matchCountFrom (old : List Char) : Nat → List Char → Nat
  | _, [] => 0
  | skip + 1, _ :: rest => matchCountFrom old skip rest
  | 0, char :: rest =>
      if old.isPrefixOf (char :: rest) then matchCountFrom old (old.length - 1) rest + 1
      else matchCountFrom old 0 rest

def matchCount (content old : List Char) : Nat := matchCountFrom old 0 content

/-- Applies a find-and-replace edit and says how many matches were replaced. -/
def applyEdit (content oldString newString : List Char) (replaceAll : Bool) :
    Except Error (List Char × Nat) :=
  if oldString.isEmpty then
    .error (.toolExecutionError "old_string must not be empty; use write_file to create a new file")
  else if oldString = newString then
    .error (.toolExecutionError "old_string and new_string are identical; nothing to edit")
  else
    let count := matchCount content oldString
    if count = 0 then .error (.toolExecutionError "old_string not found in file")
    else if 1 < count ∧ !replaceAll then
      .error (.toolExecutionError ("old_string appears " ++ toString count ++
        " times in the file; provide more surrounding context to make it unique, or set replace_all to true"))
    else if replaceAll then .ok (replace content oldString newString, count)
    else .ok (replacen oldString newString content, count)

/-- Reads the whole of a local file as text. -/
def readText (maxBytes : Nat) : Option (List UInt8) → Except Error (List Char)
  | none => .error .ioError
  | some bytes =>
      if maxBytes < bytes.length then
        .error (.toolExecutionError ("the file is " ++ toString bytes.length ++
          " bytes; only files up to " ++ toString maxBytes ++ " bytes can be read whole"))
      else match Utf8.decode bytes with
        | some text => .ok text
        | none => .error (.toolExecutionError "the file is not valid UTF-8 text")

/-- What an edit reports about the file. -/
def successMessage (path : String) (count : Nat) : String :=
  "Successfully edited " ++ path ++ " (" ++ toString count ++ " replacement" ++
    (if count = 1 then "" else "s") ++ ")"

structure EditFileArgs where
  oldString : List Char
  newString : List Char
  replaceAll : Option Bool
  deriving DecidableEq, Repr

/-- A call of `edit_file` or `write_file` on the file. -/
inductive FileCall where
  | edit (args : EditFileArgs)
  | write (content : List Char)
  deriving DecidableEq, Repr

/-- What a call will write, and what it reports then, once it has seen the file. -/
def FileCall.plan (path : String) (file : Option (List UInt8)) :
    FileCall → Except Error (List UInt8 × String)
  | .edit args => do
      let content ← readText maxEditBytes file
      let (edited, count) ← applyEdit content args.oldString args.newString
        (args.replaceAll.getD false)
      return (Utf8.encode edited, successMessage path count)
  | .write content => .ok (Utf8.encode content, "Successfully wrote to " ++ path)

end Openheim.Tools
