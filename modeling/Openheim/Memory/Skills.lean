import Mathlib.Data.List.DropRight
import Mathlib.Data.List.Sort
import Openheim.Core.Error
import Openheim.Library.Utf8
import Openheim.Tools.FileSystem

/-
This file follows `src/memory/skills.rs`: the Markdown files that hold the skills of an agent.
-/

namespace Openheim.Memory
open Openheim.Tools

def invalidSkillName (name : String) : Error :=
  .notFound ("Invalid skill name '" ++ name ++ "': must be a single path component without '..'")

def isSingleNormalComponent (path : String) : Bool :=
  match Component.components path with
  | [.normal _] => true
  | _ => false

/-- A name is one normal component of a path. -/
def validateSkillName (name : String) : Except Error Unit :=
  if !isSingleNormalComponent name || decide (['.', '.'] <:+: name.toList) ||
    '\x00' ∈ name.toList then
    .error (invalidSkillName name)
  else .ok ()

/-- `Path::join`. -/
def joinPath (dir child : String) : String :=
  if Component.isAbsolute child || dir.isEmpty then child
  else if dir.toList.getLast? = some '/' then dir ++ child
  else dir ++ "/" ++ child

section Files
variable (fs : FileSystem)

/-- The location of a path as it was given. -/
def locateText (limit : Nat) (path : String) : Except Errno (List FileName) :=
  if '\x00' ∈ path.toList then .error .invalidInput
  else if path.isEmpty then .error .notFound
  else fs.locate limit (Component.isAbsolute path) (FileSystem.steps path)

/-- `Path::exists`. -/
def existsText (path : String) : Bool := (locateText fs fs.linkLimit path).isOk

/-- `fs::read_to_string`. -/
def readToString (path : PathBuf) : Except Error String :=
  match fs.openRead path with
  | .error _ => .error .ioError
  | .ok location =>
      match fs.node location with
      | some (.file content) => (Utf8.decode content).elim (.error .ioError) fun text =>
          .ok (String.ofList text)
      | _ => .error .ioError

/-- The file of a skill. -/
def skillPath (dir name : String) : String := joinPath dir (name ++ ".md")

/-- Loads the content of a skill from the directory. -/
def loadSkill (dir name : String) : Except Error String :=
  match validateSkillName name with
  | .error error => .error error
  | .ok () =>
      let path := skillPath dir name
      if !existsText fs path then
        .error (.notFound ("Skill '" ++ name ++ "' not found at " ++ path))
      else
        match fs.canonicalizeText dir, fs.canonicalizeText path with
        | .ok dirCanonical, .ok canonical =>
            if !canonical.startsWith dirCanonical then
              .error (.notFound ("Skill '" ++ name ++ "' resolves outside the skills directory"))
            else readToString fs canonical
        | _, _ => .error .ioError

/-- The names that stand in each directory, in the order in which the system gives them. -/
structure ReadDir where
  entries : List FileName → List FileName
  complete : ∀ location name, name ∈ entries location ↔ (fs.node (location ++ [name])).isSome = true

/-- The stem and the extension of a file name: what is before and after the last dot, unless that is
the first character. -/
def splitExtension (name : List Char) : List Char × Option (List Char) :=
  let after := name.rtakeWhile fun char => char ≠ '.'
  let before := (name.rdropWhile fun char => char ≠ '.').dropLast
  if '.' ∉ name ∨ before = [] then (name, none) else (before, some after)

/-- The name of the skill in a file, if it is one. -/
def skillName (entry : FileName) : Option String :=
  let (stem, extension) := splitExtension entry.val
  if extension = some ['m', 'd'] ∧ (validateSkillName (String.ofList stem)).isOk then
    some (String.ofList stem) else none

/-- The names of all skills in their order. -/
def listSkills (readDir : ReadDir fs) (dir : String) : Except Error (List String) :=
  match locateText fs fs.linkLimit dir with
  | .error _ => .error .ioError
  | .ok location =>
      if fs.node location = some .directory then
        .ok (((readDir.entries location).filterMap skillName).insertionSort fun first second =>
          first ≤ second)
      else .error .ioError

end Files

end Openheim.Memory
