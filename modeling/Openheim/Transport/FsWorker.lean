import Openheim.Library.Machine
import Openheim.Transport.Relay

/-
This file takes the requests of the fs sidecar of `src/transport/ws.rs` apart at their awaits: a
request is validated, and then it makes one call of the system after the other. Others may change
the files in between.
-/

namespace Openheim.Transport
open Openheim.Tools

/-- What a validated request does next. -/
inductive FsTask where
  | list (path : String) (recursive : Option Bool) (validated : PathBuf)
  | read (path : String) (validated : PathBuf)
  | createParent (path content : String) (validated : PathBuf)
  | write (path content : String) (validated : PathBuf)
  | mkdir (path : String) (validated : PathBuf)
  | inspect (path : String) (validated : PathBuf)
  | removeDir (path : String) (validated : PathBuf)
  | removeFile (path : String) (validated : PathBuf)
  | rename (fromPath toPath : String) (validFrom validTo : PathBuf)
  deriving DecidableEq

/-- A request has its reply, or it goes on. -/
inductive FsProgress where
  | replied (response : FsResponse)
  | continues (task : FsTask)

namespace FsState
variable (host : Host) (tree : Tree) (state : FsState)

def validateEntry (path : String) : Except FsResponse PathBuf :=
  (Tools.validateEntry (host.fileSystem tree) path state.workDir).mapError fun error =>
    .error (host.errorText error)

/-- The task of a path, if that is valid. -/
def taskOf (validated : Except FsResponse PathBuf) (task : PathBuf → FsTask) : FsProgress :=
  match validated with
  | .error reply => .replied reply
  | .ok path => .continues (task path)

/-- Whether the directories above a path have to be made. -/
def lacksParent (path : PathBuf) : Bool :=
  path.parent.any fun parent => !(host.fileSystem tree).pathExists parent

/-- A request up to its first await. -/
def begin : FsRequest → FsState × FsProgress
  | .watch path =>
      let handled := state.startWatching host tree path
      (handled.state, .replied handled.response)
  | .unwatch => ({ state with watcher := none }, .replied .unwatched)
  | .list path recursive => (state, taskOf (state.validate host tree path) (.list path recursive))
  | .read path => (state, taskOf (state.validate host tree path) (.read path))
  | .write path content =>
      (state, taskOf (state.validate host tree path) fun validated =>
        if lacksParent host tree validated then .createParent path content validated
        else .write path content validated)
  | .mkdir path => (state, taskOf (state.validate host tree path) (.mkdir path))
  | .delete path => (state, taskOf (state.validateEntry host tree path) (.inspect path))
  | .rename fromPath toPath =>
      match state.validateEntry host tree fromPath with
      | .error reply => (state, .replied reply)
      | .ok validFrom =>
          (state, taskOf (state.validateEntry host tree toPath) (.rename fromPath toPath validFrom))

end FsState

namespace FsTask
variable (host : Host) (tree : Tree)

/-- The reply after a call of the system. -/
def conclude {Result : Type} (outcome : Except Errno Result) (failure : String)
    (success : FsResponse) : FsProgress :=
  match outcome with
  | .error error => .replied (.error (failure ++ host.errnoText error))
  | .ok _ => .replied success

/-- The files after an entry was removed or moved, if that was possible. -/
def changed (outcome : Except Errno Tree) : Tree := outcome.toOption.getD tree

/-- One call of the system, up to the next await. -/
def perform : FsTask → Tree × FsProgress
  | .list path recursive validated =>
      (tree, .replied (.fileList path (host.listDirectory tree validated (recursive.getD false))))
  | .read path validated =>
      (tree, match host.readToString tree validated with
        | .error error => .replied (.error ("Failed to read: " ++ error))
        | .ok content => .replied (.fileContent path content))
  | .createParent path content validated =>
      match validated.parent.elim (host.fileSystem tree, .ok ())
          (host.fileSystem tree).createDirAll with
      | (after, .error error) =>
          (after.toFileTree, .replied (.error ("Failed to create dirs: " ++ host.errnoText error)))
      | (after, .ok ()) => (after.toFileTree, .continues (.write path content validated))
  | .write path content validated =>
      let result := (host.fileSystem tree).write validated (Utf8.encode content.toList)
      (result.1.toFileTree, conclude host result.2 "Failed to write: " (.writeSuccess path))
  | .mkdir path validated =>
      let result := (host.fileSystem tree).createDirAll validated
      (result.1.toFileTree, conclude host result.2 "Failed to mkdir: " (.mkdirSuccess path))
  | .inspect path validated =>
      (tree, match (host.fileSystem tree).symlinkMetadata validated with
        | .error error => .replied (.error ("Failed to delete: " ++ host.errnoText error))
        | .ok .directory => .continues (.removeDir path validated)
        | .ok _ => .continues (.removeFile path validated))
  | .removeDir path validated =>
      let result := (host.fileSystem tree).removeDirAll validated
      (changed tree result, conclude host result "Failed to delete dir: " (.deleteSuccess path))
  | .removeFile path validated =>
      let result := (host.fileSystem tree).removeFile validated
      (changed tree result, conclude host result "Failed to delete file: " (.deleteSuccess path))
  | .rename fromPath toPath validFrom validTo =>
      let result := (host.fileSystem tree).rename (host.isEmptyDir tree) validFrom validTo
      (changed tree result,
        conclude host result "Failed to rename: " (.renameSuccess fromPath toPath))

end FsTask

/-- The worker of one connection, with the request at which it is. An answer
keeps the files that it told of. -/
structure FsWorker where
  tree : Tree
  fs : FsState
  working : Option (FsRequestEnvelope × FsTask)
  answered : List Answered

inductive WorkerAction where
  | accept (envelope : FsRequestEnvelope)
  | perform
  | outside (tree : Tree)

namespace FsWorker
variable (w : FsWorker)

/-- The state of the worker after a part of a request. -/
def proceed (envelope : FsRequestEnvelope) (found : Tree) : FsProgress → FsWorker
  | .replied response =>
      { w with working := none, answered := w.answered ++ [⟨found, envelope, response⟩] }
  | .continues task => { w with working := some (envelope, task) }

def step (host : Host) : WorkerAction → Option FsWorker
  | .accept envelope =>
      if w.working.isSome then none
      else
        let begun := w.fs.begin host w.tree envelope.request
        some ({ w with fs := begun.1 }.proceed envelope w.tree begun.2)
  | .perform =>
      w.working.map fun (envelope, task) =>
        let performed := task.perform host w.tree
        { w with tree := performed.1 }.proceed envelope w.tree performed.2
  | .outside tree => some { w with tree }

end FsWorker

/-- A worker just after its connection was accepted. -/
def FsWorker.initial (root : List FileName) (tree : Tree) : FsWorker :=
  ⟨tree, ⟨PathBuf.display ⟨true, root⟩, none, 0⟩, none, []⟩

/-- All runs of a worker whose work directory is given by its resolved location. -/
def workerMachine (host : Host) (root : List FileName) : Machine FsWorker WorkerAction where
  start w := ∃ tree : Tree, tree.node root = some .directory ∧ w = .initial root tree
  step w := w.step host

end Openheim.Transport
