import Openheim.Library.FileTreeMoves
import Openheim.Tools.SandboxSoundness

/-
This file follows `validate_entry` of `src/tools/sandbox.rs` and the requests of
`src/transport/ws.rs` that act on an entry of a directory: its deletion and its renaming.
-/

namespace Openheim.Tools

namespace PathBuf

def fileName (path : PathBuf) : Option FileName := path.names.getLast?

def join (path : PathBuf) (name : FileName) : PathBuf := { path with names := path.names ++ [name] }

end PathBuf

/-- Validates a path for acting on the entry that it names. Only what is
above the entry is resolved. -/
def validateEntry (fs : FileSystem) (requested workDir : String) : Except Error PathBuf :=
  match canonicalDir fs workDir with
  | .error error => .error error
  | .ok workDirCanonical =>
      let resolved := resolve requested workDirCanonical
      let isRoot :=
        decide (resolved = workDirCanonical ∨
            resolved = lexicalNormalize (Component.components workDir))
      match resolved.parent, resolved.fileName, isRoot with
      | some parent, some name, false =>
          match checkInside fs parent requested workDir workDirCanonical with
          | .ok parent => .ok (parent.join name)
          | .error error => .error error
      | _, _, _ =>
          .error (.toolExecutionError ("path '" ++ requested ++ "' is the work directory itself"))

/-- The files and directories after a request. -/
abbrev Tree := FileTree FileName (List UInt8)

namespace FileSystem

/-- The location of the entry that a path names; its last name is not followed. -/
def entryOf (fs : FileSystem) (path : PathBuf) : Except Errno (List FileName) :=
  match path.fileName with
  | none => .error (if path.absolute then .isADirectory else .notFound)
  | some name => (fs.parentOf path).map (· ++ [name])

def removeAt (fs : FileSystem) (location : List FileName) : Except Errno Tree :=
  if proper : location ≠ [] then .ok (fs.remove location proper) else .error .isADirectory

/-- `fs::remove_file`. -/
def removeFile (fs : FileSystem) (path : PathBuf) : Except Errno Tree :=
  match fs.entryOf path with
  | .error error => .error error
  | .ok location =>
      match fs.node location with
      | none => .error .notFound
      | some .directory => .error .isADirectory
      | some _ => fs.removeAt location

/-- `fs::remove_dir_all` removes a link as such. -/
def removeDirAll (fs : FileSystem) (path : PathBuf) : Except Errno Tree :=
  match fs.entryOf path with
  | .error error => .error error
  | .ok location =>
      match fs.node location with
      | none => .error .notFound
      | some (.file _) => .error .notADirectory
      | some _ => fs.removeAt location

def moveAt (fs : FileSystem) (source target : List FileName) : Except Errno Tree :=
  if can : source ≠ [] ∧ target ≠ [] ∧ fs.node target.dropLast = some .directory ∧
    ¬ source <+: target then
    .ok (fs.move source target ⟨can.1, can.2.1, can.2.2.1, can.2.2.2⟩)
  else .error .invalidInput

/-- `fs::rename` replaces a file or link, or a directory that the kernel finds empty. -/
def rename (fs : FileSystem) (isEmptyDir : List FileName → Bool) (fromPath toPath : PathBuf) :
    Except Errno Tree :=
  match fs.entryOf fromPath, fs.entryOf toPath with
  | .error error, _ => .error error
  | _, .error error => .error error
  | .ok source, .ok target =>
      match fs.node source, fs.node target with
      | none, _ => .error .notFound
      | some .directory, some .directory =>
          if source = target then .ok fs.toFileTree
          else if isEmptyDir target then fs.moveAt source target
          else .error .alreadyExists
      | some .directory, some _ => .error .notADirectory
      | some _, some .directory => .error .isADirectory
      | some _, _ => if source = target then .ok fs.toFileTree else fs.moveAt source target

end FileSystem

/-- The requests that act on an entry. -/
inductive FsRequest where
  | delete (path : String)
  | rename (fromPath toPath : String)
  deriving DecidableEq, Repr

/-- An error is that of the validation or that of a system call, after a text. -/
inductive FsResponse where
  | deleteSuccess (path : String)
  | renameSuccess (fromPath toPath : String)
  | refused (error : Error)
  | failed (message : String) (error : Errno)
  deriving DecidableEq, Repr

/-- Carries out a request on the files and directories. -/
def tryHandle (fs : FileSystem) (isEmptyDir : List FileName → Bool) (workDir : String) :
    FsRequest → Tree × FsResponse
  | .delete path =>
      match validateEntry fs path workDir with
      | .error error => (fs.toFileTree, .refused error)
      | .ok validated =>
          match fs.symlinkMetadata validated with
          | .error error => (fs.toFileTree, .failed "Failed to delete: " error)
          | .ok .directory =>
              match fs.removeDirAll validated with
              | .error error => (fs.toFileTree, .failed "Failed to delete dir: " error)
              | .ok after => (after, .deleteSuccess path)
          | .ok _ =>
              match fs.removeFile validated with
              | .error error => (fs.toFileTree, .failed "Failed to delete file: " error)
              | .ok after => (after, .deleteSuccess path)
  | .rename fromPath toPath =>
      match validateEntry fs fromPath workDir, validateEntry fs toPath workDir with
      | .error error, _ => (fs.toFileTree, .refused error)
      | _, .error error => (fs.toFileTree, .refused error)
      | .ok validFrom, .ok validTo =>
          match fs.rename isEmptyDir validFrom validTo with
          | .error error => (fs.toFileTree, .failed "Failed to rename: " error)
          | .ok after => (after, .renameSuccess fromPath toPath)

end Openheim.Tools
