import Openheim.Tools.ConfinedUse
import Openheim.Transport.FsWorker

/-
This file proves that the fs requests of a connection change only what is below the work directory,
and read nothing outside of it, as long as no path changes its meaning between its validation and
its use.
-/

namespace Openheim.Transport
open Openheim.Tools

/-- The work directory of a connection is given by the text of a directory that stands, and it
watches nothing else. -/
structure Rooted (root : List FileName) (tree : Tree) (state : FsState) : Prop where
  directory : tree.node root = some .directory
  workDir : state.workDir = PathBuf.display ⟨true, root⟩
  watches : ∀ watched, state.watcher = some watched →
    ∃ location, watched = ⟨true, location⟩ ∧ root <+: location

/-- A content is that of a file below a location, and a listing is that of a path confined to it. -/
def ReadsBelow (host : Host) (tree : Tree) (root : List FileName) (request : FsRequest) :
    FsResponse → Prop
  | .fileContent path content =>
      request = .read path ∧
        ∃ location, root <+: location ∧
          tree.node location = some (.file (Utf8.encode content.toList))
  | .fileList path entries =>
      ∃ recursive listed, request = .list path recursive ∧
        Confined (host.fileSystem tree) root listed ∧
          entries = host.listDirectory tree listed (recursive.getD false)
  | _ => True

/-- The paths of a task are those that its request, if it were validated now, would get. -/
def FsTask.StillValid (host : Host) (tree : Tree) (state : FsState) : FsTask → Prop
  | .list path _ validated | .read path validated | .createParent path _ validated
  | .write path _ validated
  | .mkdir path validated => state.validate host tree path = .ok validated
  | .inspect path validated | .removeDir path validated | .removeFile path validated =>
      state.validateEntry host tree path = .ok validated
  | .rename fromPath toPath validFrom validTo =>
      state.validateEntry host tree fromPath = .ok validFrom ∧
        state.validateEntry host tree toPath = .ok validTo

/-- The task is one of this request. -/
def FsTask.Serves (request : FsRequest) : FsTask → Prop
  | .list path recursive _ => request = .list path recursive
  | .read path _ => request = .read path
  | _ => True

/-- Others keep the work directory, and no path is used that would not be validated again. -/
def Respects (host : Host) (root : List FileName) (w : FsWorker) : WorkerAction → Prop
  | .accept _ => True
  | .perform => ∀ envelope task, w.working = some (envelope, task) →
      task.StillValid host w.tree w.fs
  | .outside tree => tree.node root = some .directory

section Validation
variable {host : Host} {root : List FileName} {tree : Tree} {state : FsState} {path : String}
  {validated : PathBuf}

/-- A path is accepted as the sandbox accepts it. -/
theorem validate_ok : state.validate host tree path = .ok validated ↔
    validatePath (host.fileSystem tree) path state.workDir = .ok validated := by
  rw [FsState.validate]
  cases validatePath (host.fileSystem tree) path state.workDir with
  | error error => exact ⟨(by rintro ⟨⟩), (by rintro ⟨⟩)⟩
  | ok found => exact ⟨(by rintro ⟨⟩; rfl), (by rintro ⟨⟩; rfl)⟩

/-- An entry is accepted as the sandbox accepts it. -/
theorem validateEntry_ok : state.validateEntry host tree path = .ok validated ↔
    Tools.validateEntry (host.fileSystem tree) path state.workDir = .ok validated := by
  rw [FsState.validateEntry]
  cases Tools.validateEntry (host.fileSystem tree) path state.workDir with
  | error error => exact ⟨(by rintro ⟨⟩), (by rintro ⟨⟩)⟩
  | ok found => exact ⟨(by rintro ⟨⟩; rfl), (by rintro ⟨⟩; rfl)⟩

/-- The work directory is found at its location. -/
theorem Rooted.canonical (rooted : Rooted root tree state)
    (clean : (⟨true, root⟩ : PathBuf).hasNul = false) :
    (host.fileSystem tree).canonicalizeText state.workDir = .ok ⟨true, root⟩ := by
  have real : (host.fileSystem tree).Real root := .directory rooted.directory
  rw [rooted.workDir]
  exact FileSystem.canonicalizeText_display real clean

/-- An accepted path leads inside. -/
theorem validate_inside (rooted : Rooted root tree state)
    (clean : (⟨true, root⟩ : PathBuf).hasNul = false)
    (accepted : state.validate host tree path = .ok validated) :
    Inside (host.fileSystem tree) root validated :=
  validatePath_inside (rooted.canonical clean) (validate_ok.mp accepted)

end Validation

/-- What a part of a request ends in: a reply that tells of nothing
outside, or a task of this request. -/
def FsProgress.Sound (host : Host) (tree : Tree) (root : List FileName) (request : FsRequest) :
    FsProgress → Prop
  | .replied response => ReadsBelow host tree root request response
  | .continues task => task.Serves request

section Parts
variable {host : Host} {root : List FileName} {tree : Tree} {state : FsState} {request : FsRequest}

/-- A refused entry is told of by the text of its error. -/
theorem validateEntry_refused {path : String} {reply : FsResponse}
    (refused : state.validateEntry host tree path = .error reply) :
    ∃ error, Tools.validateEntry (host.fileSystem tree) path state.workDir = .error error ∧
      reply = .error (host.errorText error) := by
  rw [FsState.validateEntry] at refused
  cases outcome : Tools.validateEntry (host.fileSystem tree) path state.workDir with
  | error error =>
      rw [outcome] at refused
      cases refused
      exact ⟨error, rfl, rfl⟩
  | ok found =>
      rw [outcome] at refused
      cases refused

/-- A watch changes neither the files nor the work directory. -/
theorem startWatching_keeps (host : Host) (tree : Tree) (state : FsState) (path : String) :
    (state.startWatching host tree path).tree = tree ∧
      (state.startWatching host tree path).state.workDir = state.workDir := by
  rw [FsState.startWatching]
  split
  · exact ⟨rfl, rfl⟩
  · split
    · split
      · exact ⟨rfl, rfl⟩
      · split <;> exact ⟨rfl, rfl⟩
    · exact ⟨rfl, rfl⟩

end Parts

/-- The worker is rooted, its task is one of its request, and all its
answers tell of nothing outside. -/
structure Guarded (host : Host) (root : List FileName) (w : FsWorker) : Prop where
  rooted : Rooted root w.tree w.fs
  serves : ∀ envelope task, w.working = some (envelope, task) → task.Serves envelope.request
  answers : ∀ answered ∈ w.answered,
    ReadsBelow host answered.tree root answered.request.request answered.response

section Runs
variable {host : Host} {root : List FileName} {w t : FsWorker} {action : WorkerAction}
  {actions : List WorkerAction}

/-- The worker stays guarded when it replies or goes on with its request. -/
theorem Guarded.proceed {tree found : Tree} {fs : FsState} (guarded : Guarded host root w)
    (rooted : Rooted root tree fs) (envelope : FsRequestEnvelope) {progress : FsProgress}
    (sound : progress.Sound host found root envelope.request) :
    Guarded host root ({ w with tree, fs }.proceed envelope found progress) := by
  cases progress with
  | replied response =>
      refine ⟨rooted, ?_, fun answered member => ?_⟩
      · rintro _ _ ⟨⟩
      · rcases List.mem_append.mp member with before | last
        · exact guarded.answers answered before
        · rw [List.mem_singleton.mp last]
          exact sound
  | continues task =>
      refine ⟨rooted, ?_, guarded.answers⟩
      rintro _ _ ⟨⟩
      exact sound

end Runs

section Sample

def sampleHost : Host where
  linkLimit := 40
  realpathLimit := 40
  isEmptyDir _ _ := false
  readDir _ _ := [linkName, directoryName]
  walkDir _ _ := []
  modified _ _ := none
  createWatcher := none
  watch _ _ := none
  errorText _ := "error"
  errnoText _ := "errno"
  invalidUtf8 := "stream did not contain valid UTF-8"

/-- Another program puts a file beside the work directory. -/
def besideTree : Tree := sampleTree.insert [directoryName] (.file []) (by decide) (by decide)

/-- A file is written in a new directory behind a link, then it is read and the link is deleted.
Another program writes a file while the directory is made. -/
def sampleActions : List WorkerAction :=
  [.accept ⟨some (.number "7"), .write "l/n/x" "text"⟩, .outside besideTree, .perform, .perform,
    .accept ⟨none, .read "d/n/x"⟩, .perform, .accept ⟨none, .delete "l"⟩, .perform, .perform]

end Sample

end Openheim.Transport
