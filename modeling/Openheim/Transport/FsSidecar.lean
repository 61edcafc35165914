import Openheim.Core.Json
import Openheim.Library.Utf8
import Openheim.Tools.Entries

/-
This file follows the fs sidecar of `src/transport/ws.rs`: the requests that a `/ws` client makes on
the files and directories of the work directory, and their replies.
-/

namespace Openheim.Transport
open Openheim.Tools

/-- An entry of a listing. -/
structure FileEntry where
  path : String
  name : String
  isDir : Bool
  size : Option Nat
  modified : Option Nat
  deriving DecidableEq, Repr

inductive FsRequest where
  | watch (path : String)
  | unwatch
  | list (path : String) (recursive : Option Bool)
  | read (path : String)
  | write (path content : String)
  | mkdir (path : String)
  | delete (path : String)
  | rename (fromPath toPath : String)
  deriving DecidableEq, Repr

inductive FsResponse where
  | connected (message : String)
  | watching (path : String)
  | unwatched
  | fileList (path : String) (entries : List FileEntry)
  | fileContent (path content : String)
  | writeSuccess (path : String)
  | mkdirSuccess (path : String)
  | deleteSuccess (path : String)
  | renameSuccess (fromPath toPath : String)
  | fsEvent (eventKind : String) (paths : List String)
  | error (message : String)
  deriving DecidableEq, Repr

/-- A request with the id that the client chose for its reply. -/
structure FsRequestEnvelope where
  id : Option Json
  request : FsRequest

/-- What is sent on the fs channel; only the reply to a request with an id has one. -/
structure FsReply where
  id : Option Json
  response : FsResponse

def FsReply.unsolicited (response : FsResponse) : FsReply := ⟨none, response⟩

/-- What the sidecar has from the system and from libraries: limits on links, the reading
of one directory and the walk through all that is in it, times of modification, the
watches of files, and error texts. -/
structure Host where
  linkLimit : Nat
  realpathLimit : Nat
  isEmptyDir : Tree → List FileName → Bool
  readDir : Tree → List FileName → List FileName
  walkDir : Tree → PathBuf → List PathBuf
  modified : Tree → List FileName → Option Nat
  createWatcher : Option String
  watch : Tree → PathBuf → Option String
  errorText : Error → String
  errnoText : Errno → String
  invalidUtf8 : String

namespace Host

/-- The files as the process sees them. It gives absolute paths only. -/
def fileSystem (host : Host) (tree : Tree) : FileSystem :=
  { tree with
    processDir := []
    processDir_directory := tree.root
    linkLimit := host.linkLimit
    realpathLimit := host.realpathLimit }

@[simp] theorem fileSystem_tree (host : Host) (tree : Tree) :
    (host.fileSystem tree).toFileTree = tree := rfl

/-- `fs::read_to_string`. -/
def readToString (host : Host) (tree : Tree) (path : PathBuf) : Except String String :=
  match (host.fileSystem tree).openRead path with
  | .error error => .error (host.errnoText error)
  | .ok location =>
      match tree.node location with
      | some (.file bytes) =>
          match Utf8.decode bytes with
          | some text => .ok (String.ofList text)
          | none => .error host.invalidUtf8
      | _ => .error (host.errnoText .isADirectory)

/-- The description of an entry follows every link, and without its metadata it
has neither a size nor a time. -/
def pathToFileEntry (host : Host) (tree : Tree) (path : PathBuf) : Option FileEntry :=
  path.fileName.map fun name =>
    let found := ((host.fileSystem tree).openRead path).toOption
    { path := path.display
      name := String.ofList name.val
      isDir := (host.fileSystem tree).isDir path
      size := (found.bind tree.node).bind fun node =>
        match node with
        | .file content => some content.length
        | _ => none
      modified := found.bind (host.modified tree) }

/-- A directory that cannot be read has no entries. -/
def listDirectory (host : Host) (tree : Tree) (path : PathBuf) (recursive : Bool) :
    List FileEntry :=
  if recursive then (host.walkDir tree path).filterMap (host.pathToFileEntry tree)
  else
    match (host.fileSystem tree).openRead path with
    | .error _ => []
    | .ok location =>
        if tree.node location = some .directory then
          (host.readDir tree location).filterMap fun name =>
            host.pathToFileEntry tree (path.join name)
        else []

end Host

/-- The work directory of a connection and the directory that it watches. Each new watch has a
channel of its own. -/
structure FsState where
  workDir : String
  watcher : Option PathBuf
  watches : Nat

namespace FsState

/-- The files, the state and the reply after a request. -/
structure Handled where
  tree : Tree
  state : FsState
  response : FsResponse

variable (host : Host) (tree : Tree) (state : FsState)

def validate (path : String) : Except FsResponse PathBuf :=
  (validatePath (host.fileSystem tree) path state.workDir).mapError fun error =>
    .error (host.errorText error)

/-- A watch that fails to start has already ended the one before it. -/
def startWatching (path : String) : Handled :=
  match state.validate host tree path with
  | .error reply => ⟨tree, state, reply⟩
  | .ok validated =>
      if (host.fileSystem tree).isDir validated then
        let ended : FsState := { state with watcher := none, watches := state.watches + 1 }
        match host.createWatcher with
        | some error => ⟨tree, ended, .error ("Failed to create watcher: " ++ error)⟩
        | none =>
            match host.watch tree validated with
            | some error => ⟨tree, ended, .error ("Failed to watch: " ++ error)⟩
            | none => ⟨tree, { ended with watcher := some validated }, .watching path⟩
      else ⟨tree, state, .error ("Invalid directory: " ++ path)⟩

/-- Makes the directories above a path that does not have them. -/
def createParent (fs : FileSystem) (path : PathBuf) : FileSystem × Except Errno Unit :=
  match path.parent with
  | none => (fs, .ok ())
  | some parent => if fs.pathExists parent then (fs, .ok ()) else fs.createDirAll parent

def write (path content : String) : Handled :=
  match state.validate host tree path with
  | .error reply => ⟨tree, state, reply⟩
  | .ok validated =>
      match createParent (host.fileSystem tree) validated with
      | (after, .error error) =>
          ⟨after.toFileTree, state, .error ("Failed to create dirs: " ++ host.errnoText error)⟩
      | (after, .ok ()) =>
          match after.write validated (Utf8.encode content.toList) with
          | (last, .error error) =>
              ⟨last.toFileTree, state, .error ("Failed to write: " ++ host.errnoText error)⟩
          | (last, .ok _) => ⟨last.toFileTree, state, .writeSuccess path⟩

def mkdir (path : String) : Handled :=
  match state.validate host tree path with
  | .error reply => ⟨tree, state, reply⟩
  | .ok validated =>
      match (host.fileSystem tree).createDirAll validated with
      | (after, .error error) =>
          ⟨after.toFileTree, state, .error ("Failed to mkdir: " ++ host.errnoText error)⟩
      | (after, .ok ()) => ⟨after.toFileTree, state, .mkdirSuccess path⟩

/-- The reply to a deletion or renaming. -/
def entryResponse : Tools.FsResponse → FsResponse
  | .deleteSuccess path => .deleteSuccess path
  | .renameSuccess fromPath toPath => .renameSuccess fromPath toPath
  | .refused error => .error (host.errorText error)
  | .failed message error => .error (message ++ host.errnoText error)

def handleEntry (request : Tools.FsRequest) : Handled :=
  let result := Tools.tryHandle (host.fileSystem tree) (host.isEmptyDir tree) state.workDir request
  ⟨result.1, state, entryResponse host result.2⟩

/-- Carries out one request. -/
def handle : FsRequest → Handled
  | .watch path => state.startWatching host tree path
  | .unwatch => ⟨tree, { state with watcher := none }, .unwatched⟩
  | .list path recursive =>
      match state.validate host tree path with
      | .error reply => ⟨tree, state, reply⟩
      | .ok validated =>
          ⟨tree, state, .fileList path (host.listDirectory tree validated (recursive.getD false))⟩
  | .read path =>
      match state.validate host tree path with
      | .error reply => ⟨tree, state, reply⟩
      | .ok validated =>
          match host.readToString tree validated with
          | .error error => ⟨tree, state, .error ("Failed to read: " ++ error)⟩
          | .ok content => ⟨tree, state, .fileContent path content⟩
  | .write path content => state.write host tree path content
  | .mkdir path => state.mkdir host tree path
  | .delete path => state.handleEntry host tree (.delete path)
  | .rename fromPath toPath => state.handleEntry host tree (.rename fromPath toPath)

end FsState

end Openheim.Transport
