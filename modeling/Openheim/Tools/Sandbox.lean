import Openheim.Core.Error
import Openheim.Tools.FileSystem

/-
This file follows the path validation of `src/tools/sandbox.rs`, and the local write of
`src/tools/write_file.rs`.
-/

namespace Openheim.Tools

/-- Adds one component; going up from the root stays there. -/
def pushComponent (normalized : PathBuf) : Component → PathBuf
  | .rootDir => ⟨true, []⟩
  | .curDir => normalized
  | .parentDir => { normalized with names := normalized.names.dropLast }
  | .normal part => { normalized with names := normalized.names ++ [part] }

/-- Resolves the dots of a path without a look at the file system. -/
def lexicalNormalize (path : List Component) : PathBuf := path.foldl pushComponent ⟨false, []⟩

def canonicalDir (fs : FileSystem) (dir : String) : Except Error PathBuf :=
  match fs.canonicalizeText dir with
  | .ok canonical => .ok canonical
  | .error _ => .error (.toolExecutionError ("directory '" ++ dir ++ "' is inaccessible"))

/-- A requested path as a normalized one; a relative path is taken from the base. A single dot at
its start is an inner one then, which the normalization skips. -/
def resolve (requested : String) (base : PathBuf) : PathBuf :=
  lexicalNormalize
    (if Component.isAbsolute requested then Component.components requested
    else base.components ++ Component.components requested)

def outsideWorkDir (requested workDir : String) : Error :=
  .toolExecutionError ("path '" ++ requested ++ "' is outside the work directory '" ++
    workDir ++ "'")

/-- The first existing path among those above the path with the given names, which come from the
last to the first. -/
def nearestAncestor (fs : FileSystem) (absolute : Bool) : List FileName → Option PathBuf
  | [] => none
  | _ :: above =>
      let ancestor : PathBuf := ⟨absolute, above.reverse⟩
      if fs.pathExists ancestor then some ancestor else nearestAncestor fs absolute above

/-- Checks that a normalized path lies inside the work directory, or its nearest existing ancestor
if it does not exist. -/
def checkInside (fs : FileSystem) (resolved : PathBuf) (requested workDir : String)
    (workDirCanonical : PathBuf) :
    Except Error PathBuf :=
  if fs.pathExists resolved then
    match fs.canonicalize resolved with
    | .error _ => .error .ioError
    | .ok check => if check.startsWith workDirCanonical then .ok check
        else .error (outsideWorkDir requested workDir)
  else
    match fs.symlinkMetadata resolved with
    | .ok (.link _ _) =>
        .error (.toolExecutionError
          ("path '" ++ requested ++ "' is a dangling symlink (work directory: '" ++
            workDir ++ "')"))
    | _ =>
        match nearestAncestor fs resolved.absolute resolved.names.reverse with
        | none => .error (.toolExecutionError
            ("path '" ++ requested ++ "' has no accessible ancestor within the filesystem"))
        | some ancestor =>
            match fs.canonicalize ancestor with
            | .error _ => .error .ioError
            | .ok canonicalAncestor =>
                if canonicalAncestor.startsWith workDirCanonical then .ok resolved
                else .error (outsideWorkDir requested workDir)

/-- Validates a path that is taken from a current directory; the result must
lie inside the work directory. -/
def validatePathFrom (fs : FileSystem) (requested cwd workDir : String) : Except Error PathBuf :=
  match canonicalDir fs workDir with
  | .error error => .error error
  | .ok workDirCanonical =>
      let base :=
        if Component.components cwd = Component.components workDir then .ok workDirCanonical
        else canonicalDir fs cwd
      match base with
      | .error error => .error error
      | .ok base => checkInside fs (resolve requested base) requested workDir workDirCanonical

def validatePath (fs : FileSystem) (requested workDir : String) : Except Error PathBuf :=
  validatePathFrom fs requested workDir workDir

/-- Writes a file on the local disk, after the missing directories above it are made. -/
def writeLocal (fs : FileSystem) (path : PathBuf) (content : List UInt8) :
    FileSystem × Except Errno (List FileName) :=
  match path.parent with
  | none => fs.write path content
  | some parent =>
      if parent.isEmpty then fs.write path content
      else
        match fs.createDirAll parent with
        | (after, .ok ()) => after.write path content
        | (after, .error error) => (after, .error error)

theorem writeLocal_concat (fs : FileSystem) (above : List FileName) (name : FileName)
    (content : List UInt8) :
    writeLocal fs ⟨true, above ++ [name]⟩ content =
      match fs.createDirAll ⟨true, above⟩ with
      | (after, .ok ()) => after.write ⟨true, above ++ [name]⟩ content
      | (after, .error error) => (after, .error error) := by
  simp only [writeLocal, PathBuf.parent, PathBuf.isEmpty, List.append_ne_nil_of_right_ne_nil, ne_eq,
    not_false_eq_true, if_false, List.dropLast_concat, Bool.not_true, Bool.false_and,
      Bool.false_eq_true, List.cons_ne_nil]

end Openheim.Tools
