import Openheim.Rag.CurrentVectors
import Openheim.Rag.SharedMemory

/-
This file shows when the vectors of a shared database all come from the model that it names.
-/

namespace Openheim.Rag

variable {W : Type}

/-- Every vector was produced by the recorded model and has the recorded dimension. -/
def VectorStore.OneSpace (store : VectorStore (Produced W)) : Prop :=
  ∀ rows, store.vectors = some rows → ∀ row ∈ rows,
    store.model = some row.2.model ∧ store.dimensions = some row.2.values.length

/-- A vector of the recorded dimension comes from the recorded model. -/
def VectorStore.Names (store : VectorStore (Produced W)) (vector : Produced W) : Prop :=
  store.dimensions = some vector.values.length → store.model = some vector.model

namespace VectorStore
variable {store after : VectorStore (Produced W)} {model : EmbeddingModel W} {id : Nat}
  {vector : Produced W}

/-- Deleting a vector leaves one space. -/
theorem OneSpace.deleteVector (space : store.OneSpace) (id : Nat) :
    (store.deleteVector id).OneSpace := by
  intro rows present row inside
  obtain ⟨before, found, rfl⟩ := Option.map_eq_some_iff.mp present
  exact space before found row (List.mem_filter.mp inside).1

/-- Storing a vector of the recorded model leaves one space. -/
theorem OneSpace.insertVector (space : store.OneSpace)
    (names : store.vectors.isSome → store.isEmbedded id = false → store.Names vector)
    (stored : store.insertVector model.embedder.size id vector = .ok after) : after.OneSpace := by
  unfold VectorStore.insertVector at stored
  cases present : store.vectors with
  | none => simp [present] at stored
  | some rows =>
      simp only [present] at stored
      split at stored
      · cases stored
      · next unused =>
        split at stored
        · cases stored
        · next fits =>
          cases stored
          have free : store.isEmbedded id = false := by
            rw [VectorStore.isEmbedded, present]
            exact Bool.eq_false_iff.mpr unused
          have dimensions : store.dimensions = some vector.values.length := not_ne_iff.mp fits
          intro all same row inside
          cases same
          rcases List.mem_append.mp inside with old | new
          · exact space rows present row old
          · rw [List.mem_singleton.mp new]
            exact ⟨names (Option.isSome_of_eq_some present) free dimensions, dimensions⟩

/-- Deleting a vector leaves the table. -/
theorem isSome_deleteVector (id : Nat) :
    (store.deleteVector id).vectors.isSome = store.vectors.isSome :=
  Option.isSome_map

/-- Replacing the vector of a note by one of the recorded model leaves one space. -/
theorem OneSpace.setEmbedding (space : store.OneSpace)
    (names : store.vectors.isSome → store.Names vector)
    (stored : store.setEmbedding model.embedder.size id vector = .ok after) : after.OneSpace := by
  unfold VectorStore.setEmbedding at stored
  split at stored
  · cases stored
  · next present =>
    exact (space.deleteVector id).insertVector
      (fun _ _ => names (Option.isSome_iff_ne_none.mpr fun none => present (none ▸ rfl))) stored

/-- A note and its vector are stored, or the note alone. -/
theorem OneSpace.insert (space : store.OneSpace) {now : Instant} {content : String}
    {embedding : Option (Produced W)} {record : MemoryRecord}
    (names : store.vectors.isSome → store.isEmbedded store.nextId = false →
      ∀ vector ∈ embedding, store.Names vector)
    (stored : store.insert model.embedder.size now content embedding = .ok (record, after)) :
    after.OneSpace := by
  have added : ({ store with memories := store.memories ++ [⟨store.nextId, content, now⟩] } :
      VectorStore (Produced W)).OneSpace := space
  rcases insert_cases stored with ⟨-, rfl⟩ | ⟨vector, rfl, written⟩
  · exact added
  · exact added.insertVector (fun table free => names table free vector rfl) written

/-- A note is rewritten with a new vector or with none. -/
theorem OneSpace.update (space : store.OneSpace) {content : String}
    {embedding : Option (Produced W)} {result : Option MemoryRecord} (names : store.vectors.isSome →
      (store.memories.any fun record => record.id = id) = true → ∀ vector ∈ embedding,
        store.Names vector)
    (stored : store.update model.embedder.size id content embedding = .ok (result, after)) :
    after.OneSpace := by
  have rewritten : (store.withContent id content).OneSpace := space
  have cleared := rewritten.deleteVector id
  rcases update_cases stored with rfl | ⟨found, member, named, ⟨-, rfl⟩ | ⟨vector, rfl, written⟩⟩
  · exact space
  · exact cleared
  · refine cleared.insertVector (fun table _ => ?_) written
    rw [isSome_deleteVector] at table
    exact names table (List.any_eq_true.mpr ⟨found, member, decide_eq_true named⟩) vector rfl

/-- Deleting a note leaves one space. -/
theorem OneSpace.delete (space : store.OneSpace) (id : Nat) : (store.delete id).2.OneSpace := by
  have fewer : ({ store with memories := store.memories.filter fun record => record.id ≠ id } :
      VectorStore (Produced W)).OneSpace := space
  exact fewer.deleteVector id

end VectorStore

/-- All vectors that a call carries come from one model. -/
def Stage.From (name : String) (stage : Stage (Produced W)) : Prop :=
  (∀ vector ∈ stage.vector, vector.model = name) ∧ ∀ pair ∈ stage.queue, pair.2.model = name

/-- The transaction of a call stores its vector when a new note finds its id free,
or the note to edit is there. -/
def Request.storesVector (request : Request) (store : VectorStore (Produced W)) : Bool :=
  match request with
  | .remember _ => !store.isEmbedded store.nextId
  | .edit id _ => store.memories.any fun record => record.id = id
  | .forget _ | .search _ _ => false

/-- A request that stores a vector is one that writes it. -/
theorem Request.writesVector_of_stores {request : Request} {store : VectorStore (Produced W)}
    (stores : request.storesVector store = true) : request.writesVector = true := by
  cases request with
  | remember | edit => rfl
  | forget | search => cases stores

/-- The vector that a call writes in its next transaction, given whether
the database can be written. -/
def Call.writes (call : Call (Produced W)) (store : VectorStore (Produced W)) (dbOk : Bool) :
    Option (Produced W) :=
  match call.stage with
  | .saving _ ((_, saved) :: _) _ _ => if dbOk ∧ store.vectors.isSome then some saved else none
  | .storing vector => if dbOk ∧ store.vectors.isSome ∧ call.request.storesVector store then
      vector else none
  | _ => none

/-- A call that uses no connection writes nothing. -/
theorem Call.writes_of_unused (call : Call (Produced W)) {store : VectorStore (Produced W)}
    {dbOk : Bool} (unused : ¬ call.stage.usesConnection) : call.writes store dbOk = none := by
  obtain ⟨request, stage⟩ := call
  cases stage with
  | saving vector queue failed rest =>
      cases queue with
      | nil => rfl
      | cons pair queue => exact absurd rfl unused
  | storing vector => exact absurd rfl unused
  | _ => rfl

section Calls
variable {model : EmbeddingModel W} {memory : LongTermMemory (Produced W)} {number : Nat}
  {request : Request}

/-- What the calls of one memory keep: the store holds one space, and they carry
vectors of their own model. -/
structure MemorySpace (model : EmbeddingModel W) (memory : LongTermMemory (Produced W)) : Prop where
  space : memory.store.OneSpace
  calls : ∀ number call, memory.calls number = some call → call.stage.From model.name

/-- A call that moves on leaves its handle in one space. -/
theorem MemorySpace.setStage (before : MemorySpace model memory) {store : VectorStore (Produced W)}
    {rejected : List Nat} {stage : Stage (Produced W)} (space : store.OneSpace)
    (carries : stage.From model.name) :
    MemorySpace model ({ memory with store, rejected }.setStage number request stage) where
  space := space
  calls other call running := by
    simp only [LongTermMemory.setStage, Function.update_apply] at running
    split at running
    · cases running
      exact carries
    · exact before.calls other call running

/-- A call that ends leaves its handle in one space. -/
theorem MemorySpace.finish (before : MemorySpace model memory) {store : VectorStore (Produced W)}
    {outcome : Except Error Outcome} (space : store.OneSpace) :
    MemorySpace model ({ memory with store }.finish number outcome) where
  space := space
  calls other call running := by
    simp only [LongTermMemory.finish, Function.update_apply] at running
    split at running
    · cases running
    · exact before.calls other call running

/-- The transaction of a call adds its own vector at most. -/
theorem storeRequest_space (space : memory.store.OneSpace) {vector : Option (Produced W)}
    {outcome : Outcome} {store : VectorStore (Produced W)}
    (names : memory.store.vectors.isSome → request.storesVector memory.store = true →
      ∀ given ∈ vector, memory.store.Names given)
    (stored : LongTermMemory.storeRequest model.embedder.size memory vector request =
      .ok (outcome, store)) :
    store.OneSpace := by
  cases request with
  | remember content =>
      obtain ⟨result, written, equal⟩ := VectorStore.map_eq_ok stored
      cases equal
      exact space.insert (fun table free => names table (by rw [Request.storesVector, free]; rfl))
        written
  | edit id content =>
      obtain ⟨result, written, equal⟩ := VectorStore.map_eq_ok stored
      cases equal
      exact space.update (fun table found => names table found) written
  | forget id =>
      cases stored
      exact space.delete id
  | search query topK =>
      cases stored
      exact space

/-- A step of a call keeps one space if the vector that it writes comes from the recorded model. -/
theorem MemorySpace.advance (before : MemorySpace model memory) {call : Call (Produced W)}
    {answer : Answer} {dbOk : Bool} (running : memory.calls number = some call)
    (names : ∀ vector ∈ call.writes memory.store dbOk, memory.store.Names vector) :
    MemorySpace model (LongTermMemory.advanceWith model.embedder memory number call answer
        dbOk) := by
  obtain ⟨request, stage⟩ := call
  obtain ⟨own, queued⟩ := before.calls number _ running
  obtain ⟨store, rejected, next, same, moved⟩ | ⟨store, outcome, same, stored⟩ :=
    advanceWith_moves model.embedder memory number request stage answer dbOk
  · rw [same]
    cases moved with
    | embed asked =>
        refine before.setStage before.space ⟨fun given member => ?_, by simp [Stage.queue]⟩
        cases member
        rfl
    | ensure ensured =>
        refine before.setStage ?_ ⟨own, by simp [Stage.queue]⟩
        unfold VectorStore.ensureEmbeddingSpace at ensured
        split at ensured
        · cases ensured
        · split at ensured
          · cases ensured
            exact before.space
          · cases ensured
            intro rows same row inside
            cases same
            cases inside
    | save enough stored =>
        refine before.setStage (before.space.setEmbedding (fun table => names _ ?_) stored)
          ⟨own, fun pair later => queued pair (List.mem_cons_of_mem _ later)⟩
        simp [Call.writes, enough, table]
    | carry kept fresh =>
        refine before.setStage before.space ⟨fun given member => ?_, fun pair member => ?_⟩
        · rcases kept with lost | kept
          · rw [lost] at member
            cases member
          · rw [kept] at member
            exact own given member
        · rcases fresh pair member with earlier | embedded
          · exact queued pair earlier
          · rw [embedded]
            rfl
  · rw [same]
    rcases stored with rfl | ⟨vector, result, rfl, enough, stored⟩
    · exact before.finish before.space
    · refine before.finish (storeRequest_space before.space (fun table writes given member =>
        ?_) stored)
      refine names given ?_
      simp only [Call.writes]
      rw [if_pos ⟨enough, table, writes⟩]
      exact member

end Calls

namespace SharedMemory

/-- When a call stores a vector of the recorded dimension, the recorded model is that of its own
memory: no other memory switched the space since the call checked it. -/
def WritesRecordedModel (models : Side → EmbeddingModel W) (s : SharedMemory (Produced W)) :
    SharedAction → Prop
  | .advance side number _ true =>
      match (s.handles side).calls number, (s.handles side).connection with
      | some ⟨_, .saving _ ((_, vector) :: _) _ _⟩, none =>
          s.store.vectors.isSome → s.store.dimensions = some vector.values.length →
            s.store.model = some (models side).name
      | some ⟨request, .storing (some vector)⟩, some (_, .write) =>
          s.store.vectors.isSome → request.storesVector s.store →
            s.store.dimensions = some vector.values.length → s.store.model = some (models side).name
      | _, _ => True
  | _ => True

section Shared
variable {models : Side → EmbeddingModel W} {s t : SharedMemory (Produced W)} {side : Side}
  {number : Nat}

/-- What a shared database keeps: one space, and both memories carry vectors of their own models. -/
def OneSpace (models : Side → EmbeddingModel W) (s : SharedMemory (Produced W)) : Prop :=
  ∀ side, MemorySpace (models side) (s.view side)

/-- A step of one side leaves the calls of the other as they were. -/
theorem OneSpace.put (before : OneSpace models s) {memory : LongTermMemory (Produced W)}
    (after : MemorySpace (models side) memory) (connection : Option (Nat × Statement)) :
    OneSpace models (s.put side memory connection) := by
  intro other
  refine ⟨after.space, fun number call running => ?_⟩
  by_cases same : other = side
  · subst same
    simp only [SharedMemory.view, SharedMemory.put, Function.update_self] at running
    exact after.calls number call running
  · simp only [SharedMemory.view, SharedMemory.put, Function.update_of_ne same] at running
    exact (before other).calls number call running

/-- Taking the connection changes nothing in the store. -/
theorem OneSpace.hold (before : OneSpace models s) (side : Side) (number : Nat)
    (statement : Statement) :
    OneSpace models (s.hold side number statement) := before.put (before side) _

/-- Giving the connection back leaves one space. -/
theorem OneSpace.release (before : OneSpace models s) {store : VectorStore (Produced W)}
    (space : store.OneSpace)
    {request : Request} {stage : Stage (Produced W)} (carries : stage.From (models side).name) :
    OneSpace models ({ s with store }.release side number request stage) := by
  have memory : MemorySpace (models side) ({ s with store }.view side) :=
    ⟨space, (before side).calls⟩
  have shared : OneSpace models { s with store } := fun other => ⟨space, (before other).calls⟩
  exact shared.put (memory.setStage space carries) none

/-- A stage that carries one vector of a model is from that model. -/
theorem from_of_vector {vector : Produced W} {name : String} {stage : Stage (Produced W)}
    (produced : vector.model = name) (own : stage.vector = some vector) (empty : stage.queue = []) :
    stage.From name := by
  refine ⟨fun given member => ?_, fun pair member => ?_⟩
  · rw [own] at member
    cases member
    exact produced
  · rw [empty] at member
    cases member

/-- A stage without a vector is from any model. -/
theorem from_nothing (name : String) : (Stage.storing none : Stage (Produced W)).From name :=
  ⟨nofun, nofun⟩

/-- A call whose next transaction writes nothing, or a vector of the
recorded model, keeps one space. -/
theorem OneSpace.advance (before : OneSpace models s) {call : Call (Produced W)} {answer : Answer}
    {dbOk : Bool} (running : (s.handles side).calls number = some call)
    (names : ∀ vector ∈ call.writes s.store dbOk, s.store.Names vector)
    (connection : Option (Nat × Statement)) :
    OneSpace models (s.put side
      (LongTermMemory.advanceWith (models side).embedder (s.view side) number call answer dbOk)
        connection) :=
  before.put ((before side).advance running names) connection

/-- The first statement of a call leaves one space if it writes the recorded model. -/
theorem OneSpace.firstStatement (before : OneSpace models s) {call : Call (Produced W)}
    {answer : Answer} {dbOk : Bool}
    (running : (s.handles side).calls number = some call)
    (free : (s.handles side).connection = none)
    (writes : s.WritesRecordedModel models (.advance side number answer dbOk)) :
    OneSpace models
      (SharedMemory.firstStatement (fun side => (models side).embedder) s side number call answer
          dbOk) := by
  obtain ⟨request, stage⟩ := call
  obtain ⟨own, queued⟩ := (before side).calls number _ running
  have space := (before side).space
  cases stage with
  | ensuring vector =>
      simp only [SharedMemory.firstStatement]
      split
      · exact before.hold side number _
      · exact before.release space (from_nothing _)
  | reading vector rejected =>
      simp only [SharedMemory.firstStatement]
      split
      · exact before.hold side number _
      · exact before.release space (from_of_vector (own vector rfl) rfl rfl)
  | saving vector queue failed rest =>
      refine before.advance running (fun given member => ?_) none
      cases queue with
      | nil => cases member
      | cons pair queue =>
          obtain ⟨record, saved⟩ := pair
          simp only [Call.writes] at member
          split at member
          · next enough =>
            cases member
            obtain ⟨rfl, table⟩ := enough
            simp only [WritesRecordedModel, running, free] at writes
            intro dimensions
            rw [writes table dimensions, queued (record, given) List.mem_cons_self]
          · cases member
  | storing vector =>
      cases vector with
      | none =>
          refine before.advance running (fun given member => ?_) none
          simp only [Call.writes] at member
          split at member
          · cases member
          · cases member
      | some vector =>
          simp only [SharedMemory.firstStatement]
          split
          · exact before.hold side number _
          · next idle =>
            refine before.advance running (fun given member => ?_) none
            simp only [Call.writes] at member
            rw [if_neg fun stores => idle ⟨stores.1, stores.2.1,
              Request.writesVector_of_stores stores.2.2⟩] at member
            cases member
  | _ => exact before.advance running nofun none

/-- Every later statement of a call leaves one space if it writes the recorded model. -/
theorem OneSpace.nextStatement (before : OneSpace models s) {call : Call (Produced W)}
    {answer : Answer} {dbOk : Bool}
    {statement : Statement} (running : (s.handles side).calls number = some call)
    (held : (s.handles side).connection = some (number, statement))
    (writes : s.WritesRecordedModel models (.advance side number answer dbOk))
    (stepped : SharedMemory.nextStatement (fun side => (models side).embedder) s side number call
      answer dbOk statement =
      some t) : OneSpace models t := by
  obtain ⟨request, stage⟩ := call
  obtain ⟨own, queued⟩ := (before side).calls number _ running
  have space := (before side).space
  have failed : OneSpace models (s.release side number request (.storing none)) :=
    before.release space (from_nothing _)
  cases stage with
  | ensuring vector =>
      have ensured : OneSpace models (s.release side number request (.snapshot vector)) :=
        before.release space (from_of_vector (own vector rfl) rfl rfl)
      cases statement with
      | readDimensions model =>
          simp only [SharedMemory.nextStatement] at stepped
          split at stepped
          · split at stepped
            · cases stepped
              exact before.hold side number _
            · cases stepped
              exact before.hold side number _
          · cases stepped
            exact failed
      | findTable =>
          simp only [SharedMemory.nextStatement] at stepped
          split at stepped
          · split at stepped
            · cases stepped
              exact ensured
            · cases stepped
              exact before.hold side number _
          · cases stepped
            exact failed
      | switch =>
          simp only [SharedMemory.nextStatement] at stepped
          split at stepped
          · cases stepped
            refine before.release ?_ (from_of_vector (own vector rfl) rfl rfl)
            intro rows same row inside
            cases same
            cases inside
          · cases stepped
            exact failed
      | select hasTable => cases stepped
      | write => cases stepped
  | reading vector rejected =>
      cases statement with
      | select hasTable =>
          simp only [SharedMemory.nextStatement] at stepped
          split at stepped
          · cases stepped
            exact before.release space (from_of_vector (own vector rfl) rfl rfl)
          · cases stepped
            exact before.release space (from_of_vector (own vector rfl) rfl rfl)
      | _ => cases stepped
  | storing vector =>
      cases statement with
      | write =>
          cases stepped
          refine before.advance running (fun given member => ?_) none
          simp only [Call.writes] at member
          split at member
          · next enough =>
            cases member
            simp only [WritesRecordedModel, running, held, enough.1] at writes
            intro dimensions
            rw [writes enough.2.1 enough.2.2 dimensions, own given rfl]
          · cases member
      | _ => cases stepped
  | _ => cases stepped

/-- Every step keeps one space if what it writes comes from the recorded model. -/
theorem OneSpace.step (before : OneSpace models s) {action : SharedAction}
    (writes : s.WritesRecordedModel models action)
    (stepped : sharedStep (fun side => (models side).embedder) s action = some t) :
    OneSpace models t := by
  cases action with
  | start side number request =>
      simp only [sharedStep] at stepped
      split at stepped
      · cases stepped
      · cases stepped
        refine before.put ?_ _
        unfold LongTermMemory.startCall
        split
        · exact ⟨(before side).space, (before side).calls⟩
        · refine (before side).setStage (before side).space ⟨fun given member => ?_,
            fun pair member => ?_⟩
          · split at member <;> simp [Stage.vector] at member
          · split at member <;> simp [Stage.queue] at member
  | advance side number answer dbOk =>
      obtain ⟨call, running, moved⟩ := Option.bind_eq_some_iff.mp stepped
      cases held : (s.handles side).connection with
      | none =>
          simp only [held] at moved
          cases moved
          exact before.firstStatement running held writes
      | some owner =>
          obtain ⟨owner, statement⟩ := owner
          simp only [held] at moved
          split at moved
          · next same =>
            subst same
            exact before.nextStatement running held writes moved
          · split at moved
            · cases moved
            · next unused =>
              cases moved
              refine before.advance running (fun given member => ?_) _
              rw [call.writes_of_unused unused] at member
              cases member
  | abandon side number =>
      simp only [sharedStep] at stepped
      split at stepped
      · cases stepped
        have dropped : MemorySpace (models side)
            { s.view side with calls := Function.update (s.handles side).calls number none } := by
          refine ⟨(before side).space, fun other call running => ?_⟩
          simp only [Function.update_apply] at running
          split at running
          · cases running
          · exact (before side).calls other call running
        exact before.put dropped _
      · cases stepped
  | tick =>
      cases stepped
      exact fun side => ⟨(before side).space, (before side).calls⟩

/-- If every call that stores a vector finds its own model recorded, then all vectors come from the
recorded model and have the recorded dimension. -/
theorem one_vector_space
    (reached :
      (sharedMachine (fun side => (models side).embedder) VectorStore.OneSpace).ReachableUnder
      (WritesRecordedModel models) s) :
    ∀ rows, s.store.vectors = some rows → ∀ row ∈ rows,
      s.store.model = some row.2.model ∧ s.store.dimensions = some row.2.values.length := by
  have kept : OneSpace models s := by
    apply reached.invariant
    · intro first started side
      refine ⟨started.1, fun number call running => ?_⟩
      have idle := (started.2 side).1 number
      rw [show (first.handles side).calls number = some call from running] at idle
      cases idle
    · intro before action after space writes stepped
      exact space.step writes stepped
  exact (kept .first).space

end Shared

/-- Two models with vectors of one dimension: the length of a text, and its first character. -/
def sampleModels : Side → EmbeddingModel Nat
  | .first => ⟨"length", fun text => [text.length]⟩
  | .second => ⟨"initial", fun text => [text.toList.headD ' ' |>.toNat]⟩

/-- Two memories on an empty file. -/
def emptyShared : SharedMemory (Produced Nat) :=
  ⟨⟨[], none, none, none⟩, fun _ => ⟨[], fun _ => none, none, none⟩, 0⟩

/-- Two handles on an empty store are one state to start from. -/
theorem emptyShared_start :
    (sharedMachine (fun side => (sampleModels side).embedder) VectorStore.OneSpace).start
      emptyShared :=
  ⟨nofun, fun _ => ⟨fun _ => rfl, rfl⟩⟩

/-- A note is remembered up to its last transaction: its text is embedded, the space is switched and
there is nothing to back-fill. -/
def rememberTea : List SharedAction :=
  [.start .first 0 (.remember "tea"), .advance .first 0 .vectors true,
    .advance .first 0 .vectors true, .advance .first 0 .vectors true,
    .advance .first 0 .vectors true, .advance .first 0 .vectors true,
    .advance .first 0 .vectors true, .advance .first 0 .vectors true,
      .advance .first 0 .vectors true]

/-- The other memory switches the space to its own model. -/
def searchDrinks : List SharedAction :=
  [.start .second 0 (.search "drinks" 5), .advance .second 0 .vectors true,
    .advance .second 0 .vectors true, .advance .second 0 .vectors true,
      .advance .second 0 .vectors true]

/-- The last statements of the first call. -/
def storeTea : List SharedAction :=
  [.advance .first 0 .vectors true, .advance .first 0 .vectors true]

/-- The other memory switches the space between the check of the first call and its transaction. -/
theorem mixed_vector_space : ∃ s,
    (sharedMachine (fun side => (sampleModels side).embedder) VectorStore.OneSpace).Reachable s ∧
    s.store.model = some "initial" ∧ s.store.dimensions = some 1 ∧
    s.store.vectors = some [(1, ⟨"length", [3]⟩)] ∧ ¬ s.store.OneSpace := by
  have executed :
    (sharedMachine (fun side => (sampleModels side).embedder) VectorStore.OneSpace).exec emptyShared
    (rememberTea ++ searchDrinks ++ storeTea) = some _ := rfl
  refine ⟨_, Machine.reachable_of_exec emptyShared_start executed, rfl, rfl, rfl, fun space => ?_⟩
  have named := (space _ rfl (1, ⟨"length", [3]⟩) (List.mem_singleton_self _)).1
  revert named
  decide

/-- Alone, the first memory stores a vector of its model. -/
theorem one_vector_space_sample : ∃ s : SharedMemory (Produced Nat),
    s.store.vectors = some [(1, ⟨"length", [3]⟩)] ∧
    ∀ rows, s.store.vectors = some rows → ∀ row ∈ rows,
      s.store.model = some row.2.model ∧ s.store.dimensions = some row.2.values.length := by
  have executed :
    (sharedMachine (fun side => (sampleModels side).embedder) VectorStore.OneSpace).exec emptyShared
    (rememberTea ++ storeTea) = some _ := rfl
  have permitted :
      (sharedMachine (fun side => (sampleModels side).embedder) VectorStore.OneSpace).Permits
      (WritesRecordedModel sampleModels) emptyShared (rememberTea ++ storeTea) := by
    repeat
      refine Machine.permits_cons trivial rfl ?_
    exact ⟨fun _ _ _ => rfl, fun _ _ => trivial⟩
  exact ⟨_, rfl, one_vector_space ⟨emptyShared, emptyShared_start,
    Machine.exec_runs permitted executed⟩⟩

end SharedMemory

end Openheim.Rag
