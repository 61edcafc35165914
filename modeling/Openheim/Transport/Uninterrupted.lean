import Openheim.Transport.SidecarSoundness

/-
This file proves that a request which the relay carries out as one step is a run of the worker that
nobody interrupts, and that such a run never uses a path that would not be validated again.
-/

namespace Openheim.Transport
open Openheim.Tools

/-- The worker, at a part of a request, goes on alone and ends as the handled request. -/
def CarriesOut (host : Host) (root : List FileName) (w : FsWorker) (envelope : FsRequestEnvelope)
    (found : Tree) (progress : FsProgress) (handled : FsState.Handled) : Prop :=
  ∃ count last, (workerMachine host root).exec (w.proceed envelope found progress)
      (List.replicate count .perform) =
        some ⟨handled.tree, handled.state, none,
          w.answered ++ [⟨last, envelope, handled.response⟩]⟩ ∧
    (workerMachine host root).Permits (Respects host root) (w.proceed envelope found progress)
      (List.replicate count .perform)

section Parts
variable {host : Host} {root : List FileName} {w : FsWorker} {envelope : FsRequestEnvelope}
  {found tree : Tree}
  {state : FsState}

theorem carriesOut_replied (response : FsResponse) :
    CarriesOut host root w envelope found (.replied response) ⟨w.tree, w.fs, response⟩ :=
  ⟨0, found, rfl, trivial⟩

/-- A call of the system at valid paths is one more step. -/
theorem carriesOut_perform {task : FsTask} {after : Tree} {progress : FsProgress}
    {handled : FsState.Handled}
    (valid : task.StillValid host w.tree w.fs)
    (performed : task.perform host w.tree = (after, progress))
    (rest : CarriesOut host root { w with tree := after } envelope w.tree progress handled) :
    CarriesOut host root w envelope found (.continues task) handled := by
  obtain ⟨count, last, executed, permitted⟩ := rest
  have stepped :
      (workerMachine host root).step (w.proceed envelope found (.continues task)) .perform =
      some (FsWorker.proceed { w with tree := after, working := some (envelope, task) } envelope
          w.tree progress) := by
    change some _ = _
    dsimp only
    rw [FsWorker.proceed, performed]
  have forgets : FsWorker.proceed { w with tree := after, working := some (envelope, task) }
      envelope w.tree progress =
      FsWorker.proceed { w with tree := after } envelope w.tree progress := by
    cases progress <;> rfl
  rw [forgets] at stepped
  refine ⟨count + 1, last, ?_, ?_⟩
  · rw [List.replicate_succ, Machine.exec, stepped]
    exact executed
  · refine Machine.permits_cons ?_ stepped permitted
    rintro _ _ ⟨⟩
    exact valid

/-- The last call of a request. -/
theorem carriesOut_last {task : FsTask} {after : Tree} {response : FsResponse}
    (valid : task.StillValid host w.tree w.fs)
    (performed : task.perform host w.tree = (after, .replied response)) :
    CarriesOut host root w envelope found (.continues task) ⟨after, w.fs, response⟩ :=
  carriesOut_perform valid performed (carriesOut_replied response)

/-- Making directories changes the tree of the host and nothing else. -/
theorem host_fileSystem_eq {after : FileSystem}
    (same : FileSystem.SameProcess (host.fileSystem tree) after) :
    host.fileSystem after.toFileTree = after := by
  obtain ⟨tree, processDir, stands, linkLimit, realpathLimit⟩ := after
  obtain ⟨rfl, rfl, rfl⟩ := same
  rfl

/-- A path stays valid while the directories above it are made. -/
theorem validate_made (rooted : Rooted root tree state)
    (clean : (⟨true, root⟩ : PathBuf).hasNul = false)
    {path : String} {validated parent : PathBuf}
    (accepted : state.validate host tree path = .ok validated)
    (above : validated.parent = some parent)
    (made : ((host.fileSystem tree).createDirAll parent).2 = .ok ()) :
    state.validate host ((host.fileSystem tree).createDirAll parent).1.toFileTree path =
      .ok validated := by
  have grown := (validate_inside rooted clean accepted).createParent above
  have process := FileSystem.createDirAll_process (host.fileSystem tree) parent
  have again : Rooted root ((host.fileSystem tree).createDirAll parent).1.toFileTree state :=
    ⟨grown.extends_tree _ _ rooted.directory, rooted.workDir, rooted.watches⟩
  have canonical := @Rooted.canonical host root _ state again clean
  rw [host_fileSystem_eq process] at canonical
  rw [validate_ok, host_fileSystem_eq process]
  exact validatePath_made (rooted.canonical clean) canonical (validate_ok.mp accepted) above made

end Parts

section Requests
variable {host : Host} {root : List FileName} {w : FsWorker} {envelope : FsRequestEnvelope}
  {found : Tree}

/-- A write after its parent was made, or without a need for it. -/
theorem carriesOut_write {path content : String} {validated : PathBuf}
    (valid : w.fs.validate host w.tree path = .ok validated) :
    CarriesOut host root w envelope found (.continues (.write path content validated))
      (match (host.fileSystem w.tree).write validated (Utf8.encode content.toList) with
        | (last, .error error) =>
            ⟨last.toFileTree, w.fs, .error ("Failed to write: " ++ host.errnoText error)⟩
        | (last, .ok _) => ⟨last.toFileTree, w.fs, .writeSuccess path⟩) := by
  rcases written : (host.fileSystem w.tree).write validated (Utf8.encode content.toList) with
    ⟨last, outcome⟩
  cases outcome with
  | error error =>
      refine carriesOut_last valid ?_
      rw [FsTask.perform, written]
      rfl
  | ok location =>
      refine carriesOut_last valid ?_
      rw [FsTask.perform, written]
      rfl

theorem begin_write (rooted : Rooted root w.tree w.fs)
    (clean : (⟨true, root⟩ : PathBuf).hasNul = false)
    (path content : String) :
    CarriesOut host root w envelope found (w.fs.begin host w.tree (.write path content)).2
      (w.fs.write host w.tree path content) := by
  rw [FsState.begin, FsState.write]
  cases accepted : w.fs.validate host w.tree path with
  | error reply => exact carriesOut_replied reply
  | ok validated =>
      dsimp only [FsState.taskOf]
      rw [FsState.createParent, FsState.lacksParent]
      cases above : validated.parent with
      | none => exact carriesOut_write accepted
      | some parent =>
          dsimp only [Option.any_some]
          by_cases stands : (host.fileSystem w.tree).pathExists parent = true
          · simp only [stands, Bool.not_true, Bool.false_eq_true, if_false, if_true]
            exact carriesOut_write accepted
          · rw [Bool.not_eq_true] at stands
            simp only [stands, Bool.not_false, Bool.false_eq_true, if_false, if_true]
            have kept :=
              @validate_made host root w.tree w.fs rooted clean path validated parent accepted above
            have process := FileSystem.createDirAll_process (host.fileSystem w.tree) parent
            rcases made : (host.fileSystem w.tree).createDirAll parent with ⟨after, outcome⟩
            rw [made] at kept process
            cases outcome with
            | error error =>
                refine carriesOut_last accepted ?_
                rw [FsTask.perform, above]
                dsimp only [Option.elim]
                rw [made]
            | ok =>
                have performed : (FsTask.createParent path content validated).perform host w.tree =
                    (after.toFileTree, .continues (.write path content validated)) := by
                  rw [FsTask.perform, above]
                  dsimp only [Option.elim]
                  rw [made]
                have last :=
                  @carriesOut_write host root { w with tree := after.toFileTree } envelope
                    w.tree path
                  content validated (kept rfl)
                rw [host_fileSystem_eq process] at last
                exact carriesOut_perform accepted performed last

theorem begin_mkdir (path : String) :
    CarriesOut host root w envelope found (w.fs.begin host w.tree (.mkdir path)).2
      (w.fs.mkdir host w.tree path) := by
  rw [FsState.begin, FsState.mkdir]
  cases accepted : w.fs.validate host w.tree path with
  | error reply => exact carriesOut_replied reply
  | ok validated =>
      dsimp only [FsState.taskOf]
      rcases made : (host.fileSystem w.tree).createDirAll validated with ⟨after, outcome⟩
      have performed : (FsTask.mkdir path validated).perform host w.tree =
          (after.toFileTree, FsTask.conclude host outcome "Failed to mkdir: "
              (.mkdirSuccess path)) := by
        rw [FsTask.perform, made]
      cases outcome with
      | error error => exact carriesOut_last accepted performed
      | ok => exact carriesOut_last accepted performed

/-- What stands at the entry decides how it is removed. -/
theorem begin_delete (path : String) :
    CarriesOut host root w envelope found (w.fs.begin host w.tree (.delete path)).2
      (w.fs.handleEntry host w.tree (.delete path)) := by
  rw [FsState.begin, FsState.handleEntry, tryHandle]
  cases accepted : w.fs.validateEntry host w.tree path with
  | error reply =>
      obtain ⟨error, refused, rfl⟩ := validateEntry_refused accepted
      rw [refused]
      exact carriesOut_replied _
  | ok validated =>
      rw [validateEntry_ok.mp accepted]
      dsimp only [FsState.taskOf]
      cases inspected : (host.fileSystem w.tree).symlinkMetadata validated with
      | error error =>
          refine carriesOut_last accepted ?_
          rw [FsTask.perform, inspected]
          rfl
      | ok node =>
          cases node with
          | directory =>
              have next : (FsTask.inspect path validated).perform host w.tree =
                  (w.tree, .continues (.removeDir path validated)) := by
                    rw [FsTask.perform, inspected]
              refine carriesOut_perform accepted next ?_
              dsimp only
              cases removed : (host.fileSystem w.tree).removeDirAll validated with
              | error error =>
                  refine carriesOut_last accepted ?_
                  rw [FsTask.perform, removed]
                  rfl
              | ok after =>
                  refine carriesOut_last accepted ?_
                  rw [FsTask.perform, removed]
                  rfl
          | file content | link absolute target =>
              have next : (FsTask.inspect path validated).perform host w.tree =
                  (w.tree, .continues (.removeFile path validated)) := by
                    rw [FsTask.perform, inspected]
              refine carriesOut_perform accepted next ?_
              dsimp only
              cases removed : (host.fileSystem w.tree).removeFile validated with
              | error error =>
                  refine carriesOut_last accepted ?_
                  rw [FsTask.perform, removed]
                  rfl
              | ok after =>
                  refine carriesOut_last accepted ?_
                  rw [FsTask.perform, removed]
                  rfl

theorem begin_rename (fromPath toPath : String) :
    CarriesOut host root w envelope found (w.fs.begin host w.tree (.rename fromPath toPath)).2
      (w.fs.handleEntry host w.tree (.rename fromPath toPath)) := by
  rw [FsState.begin, FsState.handleEntry, tryHandle]
  cases leaves : w.fs.validateEntry host w.tree fromPath with
  | error reply =>
      obtain ⟨error, refused, rfl⟩ := validateEntry_refused leaves
      rw [refused]
      exact carriesOut_replied _
  | ok validFrom =>
      rw [validateEntry_ok.mp leaves]
      dsimp only
      cases arrives : w.fs.validateEntry host w.tree toPath with
      | error reply =>
          obtain ⟨error, refused, rfl⟩ := validateEntry_refused arrives
          rw [refused]
          exact carriesOut_replied _
      | ok validTo =>
          rw [validateEntry_ok.mp arrives]
          dsimp only [FsState.taskOf]
          cases renamed : (host.fileSystem w.tree).rename (host.isEmptyDir w.tree) validFrom
              validTo with
          | error error =>
              refine carriesOut_last ⟨leaves, arrives⟩ ?_
              rw [FsTask.perform, renamed]
              rfl
          | ok after =>
              refine carriesOut_last ⟨leaves, arrives⟩ ?_
              rw [FsTask.perform, renamed]
              rfl

/-- Every request that is begun is carried out as it is handled. -/
theorem begin_carriesOut (rooted : Rooted root w.tree w.fs)
    (clean : (⟨true, root⟩ : PathBuf).hasNul = false)
    (request : FsRequest) :
    CarriesOut host root { w with fs := (w.fs.begin host w.tree request).1 } envelope found
      (w.fs.begin host w.tree request).2 (w.fs.handle host w.tree request) := by
  cases request with
  | watch path =>
      have same : (w.fs.startWatching host w.tree path).tree = w.tree :=
        (startWatching_keeps host w.tree w.fs path).1
      rw [FsState.begin, FsState.handle]
      dsimp only
      rcases started : w.fs.startWatching host w.tree path with ⟨tree, state, response⟩
      rw [started] at same
      cases same
      exact carriesOut_replied response
  | unwatch => exact carriesOut_replied .unwatched
  | list path recursive =>
      rw [FsState.begin, FsState.handle]
      cases accepted : w.fs.validate host w.tree path with
      | error reply => exact carriesOut_replied reply
      | ok validated => exact carriesOut_last accepted rfl
  | read path =>
      rw [FsState.begin, FsState.handle]
      cases accepted : w.fs.validate host w.tree path with
      | error reply => exact carriesOut_replied reply
      | ok validated =>
          dsimp only [FsState.taskOf]
          cases read : host.readToString w.tree validated with
          | error error =>
              refine carriesOut_last accepted ?_
              rw [FsTask.perform, read]
          | ok content =>
              refine carriesOut_last accepted ?_
              rw [FsTask.perform, read]
  | write path content => exact begin_write rooted clean path content
  | mkdir path => exact begin_mkdir path
  | delete path => exact begin_delete path
  | rename fromPath toPath =>
      have same : (w.fs.begin host w.tree (.rename fromPath toPath)).1 = w.fs := by
        rw [FsState.begin]
        split <;> rfl
      rw [same]
      exact begin_rename fromPath toPath

end Requests

/-- A request that the relay carries out as one step is a run of the worker
alone, which respects all paths. -/
theorem work_uninterrupted {host : Host} {root : List FileName} {c t : Connection}
    (rooted : Rooted root c.tree c.fs)
    (clean : (⟨true, root⟩ : PathBuf).hasNul = false) (worked : c.work host = some t)
    (answered : List Answered) :
    ∃ envelope response count last,
      (workerMachine host root).exec ⟨c.tree, c.fs, none, answered⟩
        (.accept envelope :: List.replicate count .perform) =
          some ⟨t.tree, t.fs, none, answered ++ [⟨last, envelope, response⟩]⟩ ∧
      (workerMachine host root).Permits (Respects host root) ⟨c.tree, c.fs, none, answered⟩
        (.accept envelope :: List.replicate count .perform) ∧
      t.answered = c.answered ++ [⟨c.tree, envelope, response⟩] := by
  rw [Connection.work] at worked
  split at worked
  · next envelope rest _ _ =>
    cases worked
    obtain ⟨count, last, executed, permitted⟩ :=
      @begin_carriesOut host root ⟨c.tree, c.fs, none, answered⟩ envelope
      c.tree rooted clean envelope.request
    exact ⟨envelope, _, count, last, executed, Machine.permits_cons trivial rfl permitted, rfl⟩
  · cases worked

end Openheim.Transport
