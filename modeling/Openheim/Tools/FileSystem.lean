import Openheim.Library.FileTree

/-
This file holds what the file tools use of `std::path` and `std::fs` on Unix: path components,
symbolic links, and the calls that make directories and files.
-/

namespace Openheim.Tools

/-- A name in a directory is neither empty nor one of the two dots, and it has no slash. -/
def isFileName (name : List Char) : Bool :=
  name ≠ [] ∧ name ≠ ['.'] ∧ name ≠ ['.', '.'] ∧ '/' ∉ name

abbrev FileName := {name : List Char // isFileName name = true}

/-- One component of a path, as `Path::components` gives it. -/
inductive Component where
  | rootDir
  | curDir
  | parentDir
  | normal (name : FileName)
  deriving DecidableEq

/-- A path without dots. -/
@[ext]
structure PathBuf where
  absolute : Bool
  names : List FileName
  deriving DecidableEq

namespace Component

def isAbsolute (path : String) : Bool := path.toList.head? = some '/'

/-- Repeated slashes and inner single dots are skipped. -/
def ofPiece (piece : List Char) : Option Component :=
  if name : isFileName piece = true then some (.normal ⟨piece, name⟩)
  else if piece = ['.', '.'] then some .parentDir
  else none

/-- The components of a path; a single dot counts only at the start of a relative path. -/
def components (path : String) : List Component :=
  let pieces := path.toList.splitOn '/'
  (if isAbsolute path then [rootDir] else if pieces.head? = some ['.'] then [curDir] else []) ++
    pieces.filterMap ofPiece

end Component

namespace PathBuf

def components (path : PathBuf) : List Component :=
  (if path.absolute then [.rootDir] else []) ++ path.names.map .normal

/-- The path as text. -/
def display (path : PathBuf) : String :=
  String.ofList ((if path.absolute then ['/'] else []) ++ ['/'].intercalate
    (path.names.map Subtype.val))

def parent (path : PathBuf) : Option PathBuf :=
  if path.names = [] then none else some { path with names := path.names.dropLast }

def isEmpty (path : PathBuf) : Bool := !path.absolute && path.names.isEmpty

/-- Whether a path begins with all components of another. -/
def startsWith (path base : PathBuf) : Bool := base.components.isPrefixOf path.components

/-- No system call takes a path with a zero character. -/
def hasNul (path : PathBuf) : Bool := path.names.any fun name => '\x00' ∈ name.val

end PathBuf

/-- Why a system call fails. -/
inductive Errno where
  | notFound
  | alreadyExists
  | notADirectory
  | isADirectory
  | tooManyLinks
  | invalidInput
  deriving DecidableEq, Repr

def Errno.ofLookup : LookupError → Errno
  | .notFound => .notFound
  | .notADirectory => .notADirectory
  | .tooManyLinks => .tooManyLinks

/-- The state of the file system, with the working directory of the process. The kernel and
`realpath` each limit the links that one path may lead through. -/
structure FileSystem extends FileTree FileName (List UInt8) where
  processDir : List FileName
  processDir_directory : node processDir = some .directory
  linkLimit : Nat
  realpathLimit : Nat

namespace FileSystem

def startOf (fs : FileSystem) (absolute : Bool) : List FileName :=
  if absolute then [] else fs.processDir

/-- The location that some steps lead to when every link is followed. -/
def locate (fs : FileSystem) (limit : Nat) (absolute : Bool) (steps : List (PathStep FileName)) :
    Except Errno (List FileName) :=
  match fs.lookup limit (fs.startOf absolute) steps with
  | .found location _ => .ok location
  | .absent _ _ => .error .notFound
  | .failed error => .error (.ofLookup error)

/-- How the kernel reads the pieces of a path. -/
def stepOfPiece (piece : List Char) : Option (PathStep FileName) :=
  if name : isFileName piece = true then some (.entry ⟨piece, name⟩)
  else if piece = ['.', '.'] then some .parent
  else if piece = ['.'] then some .current
  else none

/-- A slash at the end asks for a directory. -/
def steps (path : String) : List (PathStep FileName) :=
  let pieces := path.toList.splitOn '/'
  pieces.filterMap stepOfPiece ++ if pieces.getLast? = some [] then [.current] else []

/-- `Path::canonicalize` on a path as it was given. -/
def canonicalizeText (fs : FileSystem) (path : String) : Except Errno PathBuf :=
  if '\x00' ∈ path.toList then .error .invalidInput
  else if path.isEmpty then .error .notFound
  else (fs.locate fs.realpathLimit (Component.isAbsolute path) (steps path)).map fun location =>
    ⟨true, location⟩

/-- The location of a path without dots. -/
def follow (fs : FileSystem) (limit : Nat) (path : PathBuf) : Except Errno (List FileName) :=
  if path.hasNul then .error .invalidInput
  else if path.isEmpty then .error .notFound
  else fs.locate limit path.absolute (path.names.map .entry)

/-- `Path::canonicalize`. -/
def canonicalize (fs : FileSystem) (path : PathBuf) : Except Errno PathBuf :=
  (fs.follow fs.realpathLimit path).map fun location => ⟨true, location⟩

/-- Opening a path for reading follows every link. -/
def openRead (fs : FileSystem) (path : PathBuf) : Except Errno (List FileName) :=
  fs.follow fs.linkLimit path

/-- `Path::exists` is false whenever the metadata cannot be read. -/
def pathExists (fs : FileSystem) (path : PathBuf) : Bool := (fs.openRead path).isOk

/-- `Path::is_dir`. -/
def isDir (fs : FileSystem) (path : PathBuf) : Bool :=
  match fs.openRead path with
  | .ok location => fs.node location = some .directory
  | .error _ => false

/-- The directory in which the last name of a path is looked for. -/
def parentOf (fs : FileSystem) (path : PathBuf) : Except Errno (List FileName) :=
  if path.hasNul then .error .invalidInput
  else
    match fs.locate fs.linkLimit path.absolute (path.names.dropLast.map .entry) with
    | .ok directory => if fs.node directory = some .directory then .ok directory
        else .error .notADirectory
    | .error error => .error error

/-- `Path::symlink_metadata` does not follow the last name. -/
def symlinkMetadata (fs : FileSystem) (path : PathBuf) :
    Except Errno (TreeNode FileName (List UInt8)) :=
  match path.names.getLast? with
  | none => if path.absolute then .ok .directory else .error .notFound
  | some name =>
      match fs.parentOf path with
      | .ok directory => (fs.node (directory ++ [name])).elim (.error .notFound) .ok
      | .error error => .error error

/-- Puts a node where a directory can take it and no directory stands. -/
def put (fs : FileSystem) (location : List FileName) (node : TreeNode FileName (List UInt8)) :
    Except Errno FileSystem :=
  if free : fs.node location ≠ some .directory then
    if inside : location ≠ [] ∧ fs.node location.dropLast = some .directory then
      .ok { fs with
        toFileTree := fs.insert location node inside free
        processDir_directory := by
          rw [FileTree.insert_node, if_neg]
          · exact fs.processDir_directory
          · intro same
            exact free (same ▸ fs.processDir_directory) }
    else .error .notADirectory
  else .error .isADirectory

/-- The system call `mkdir` does not follow the last name either. -/
def mkdir (fs : FileSystem) (path : PathBuf) : Except Errno FileSystem :=
  match path.names.getLast? with
  | none => if path.absolute then .error .alreadyExists else .error .notFound
  | some name =>
      match fs.parentOf path with
      | .ok directory =>
          if (fs.node (directory ++ [name])).isSome then .error .alreadyExists
          else fs.put (directory ++ [name]) .directory
      | .error error => .error error

/-- Makes the directory whose names are given from the last to the first, after those above it. -/
def createAll (absolute : Bool) (fs : FileSystem) : List FileName → FileSystem × Except Errno Unit
  | [] => (fs, .ok ())
  | name :: above =>
      let path : PathBuf := ⟨absolute, (name :: above).reverse⟩
      match fs.mkdir path with
      | .ok after => (after, .ok ())
      | .error .notFound =>
          match createAll absolute fs above with
          | (after, .error error) => (after, .error error)
          | (after, .ok ()) =>
              match after.mkdir path with
              | .ok last => (last, .ok ())
              | .error error => (after, if after.isDir path then .ok () else .error error)
      | .error error => (fs, if fs.isDir path then .ok () else .error error)

/-- `fs::create_dir_all`. -/
def createDirAll (fs : FileSystem) (path : PathBuf) : FileSystem × Except Errno Unit :=
  createAll path.absolute fs path.names.reverse

theorem createDirAll_concat (fs : FileSystem) (above : List FileName) (name : FileName) :
    fs.createDirAll ⟨true, above ++ [name]⟩ =
      match fs.mkdir ⟨true, above ++ [name]⟩ with
      | .ok after => (after, .ok ())
      | .error .notFound =>
          match fs.createDirAll ⟨true, above⟩ with
          | (after, .error error) => (after, .error error)
          | (after, .ok ()) =>
              match after.mkdir ⟨true, above ++ [name]⟩ with
              | .ok last => (last, .ok ())
              | .error error => (after, if after.isDir ⟨true, above ++ [name]⟩ then .ok ()
                  else .error error)
      | .error error => (fs, if fs.isDir ⟨true, above ++ [name]⟩ then .ok ()
          else .error error) := by
  rw [createDirAll, createDirAll, List.reverse_concat, createAll]
  simp only [List.reverse_cons, List.reverse_reverse]

/-- Gives the location that was written. -/
def writeAt (fs : FileSystem) (content : List UInt8) (location : List FileName) :
    FileSystem × Except Errno (List FileName) :=
  match fs.put location (.file content) with
  | .ok after => (after, .ok location)
  | .error error => (fs, .error error)

/-- `fs::write` truncates the file that a path leads to, or makes it. -/
def write (fs : FileSystem) (path : PathBuf) (content : List UInt8) :
    FileSystem × Except Errno (List FileName) :=
  if path.hasNul then (fs, .error .invalidInput)
  else if path.isEmpty then (fs, .error .notFound)
  else
    match fs.lookup fs.linkLimit (fs.startOf path.absolute) (path.names.map .entry) with
    | .found location _ => fs.writeAt content location
    | .absent directory name => fs.writeAt content (directory ++ [name])
    | .failed error => (fs, .error (.ofLookup error))

end FileSystem

end Openheim.Tools
