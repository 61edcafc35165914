import Openheim.Rag.MemoryMoves

/-
This file shows when the stored vectors of a long-term memory stay the embeddings of the present
texts.
-/

namespace Openheim.Rag

namespace LongTermMemory
variable {V : Type}

/-- A back-fill saves a vector of the recorded dimension only while its note exists
with the text that was read. -/
def SavesCurrent (embedder : Embedder V) (s : LongTermMemory V) : MemoryAction → Prop
  | .advance number _ true =>
      match s.calls number with
      | some ⟨_, .saving _ ((record, vector) :: _) _ _⟩ =>
          s.store.vectors.isSome → s.store.dimensions = some (embedder.size vector) →
            ∃ current ∈ s.store.memories, current.id = record.id ∧ current.content = record.content
      | _ => True
  | _ => True

/-- A call carries embeddings of the texts that it read or was given. -/
def Fits (embedder : Embedder V) (request : Request) (stage : Stage V) : Prop :=
  (∀ vector ∈ stage.vector, ∀ text ∈ request.text, vector = embedder.embed text) ∧
    ∀ pair ∈ stage.queue, pair.2 = embedder.embed pair.1.content

structure MemoryInvariant (embedder : Embedder V) (s : LongTermMemory V) : Prop where
  store : s.store.Current embedder.embed
  calls : ∀ number call, s.calls number = some call → Fits embedder call.request call.stage

section Invariant
variable {embedder : Embedder V} {s t : LongTermMemory V} {number : Nat} {request : Request}

/-- A call goes on and leaves current vectors behind. -/
theorem MemoryInvariant.setStage (inv : MemoryInvariant embedder s) {store : VectorStore V}
    {rejected : List Nat}
    {stage : Stage V} (current : store.Current embedder.embed)
    (fits : Fits embedder request stage) :
    MemoryInvariant embedder ({ s with store, rejected }.setStage number request stage) where
  store := current
  calls other call running := by
    simp only [LongTermMemory.setStage, Function.update_apply] at running
    split at running
    · cases running
      exact fits
    · exact inv.calls other call running

theorem MemoryInvariant.finish (inv : MemoryInvariant embedder s) {store : VectorStore V}
    {outcome : Except Error Outcome} (current : store.Current embedder.embed) :
    MemoryInvariant embedder ({ s with store }.finish number outcome) where
  store := current
  calls other call running := by
    simp only [LongTermMemory.finish, Function.update_apply] at running
    split at running
    · simp at running
    · exact inv.calls other call running

/-- The transaction of a call stores the embedding of the call's own text. -/
theorem storeRequest_current (current : s.store.Current embedder.embed) {vector : Option V}
    {outcome : Outcome}
    {store : VectorStore V} (own : ∀ given ∈ vector, ∀ text ∈ request.text,
      given = embedder.embed text)
    (stored : storeRequest embedder.size s vector request = .ok (outcome, store)) :
    store.Current embedder.embed := by
  cases request with
  | remember content =>
      obtain ⟨result, written, equal⟩ := VectorStore.map_eq_ok stored
      cases equal
      exact current.insert (fun given member => own given member content rfl) written
  | edit id content =>
      obtain ⟨result, written, equal⟩ := VectorStore.map_eq_ok stored
      cases equal
      exact current.update (fun given member => own given member content rfl) written
  | forget id =>
      cases stored
      exact current.delete id
  | search query topK =>
      cases stored
      exact current

/-- Each step of a call keeps the invariant if the vector it saves is current. -/
theorem MemoryInvariant.advance (inv : MemoryInvariant embedder s) {call : Call V} {answer : Answer}
    {dbOk : Bool}
    (running : s.calls number = some call)
    (saves : s.SavesCurrent embedder (.advance number answer dbOk)) :
    MemoryInvariant embedder (advanceWith embedder s number call answer dbOk) := by
  obtain ⟨request, stage⟩ := call
  obtain ⟨own, queued⟩ := inv.calls number _ running
  obtain ⟨store, rejected, next, same, moved⟩ | ⟨store, outcome, same, stored⟩ :=
    advanceWith_moves embedder s number request stage answer dbOk
  · rw [same]
    cases moved with
    | embed asked =>
        refine inv.setStage inv.store ⟨fun given member other same => ?_, by simp [Stage.queue]⟩
        cases member
        rw [asked] at same
        cases same
        rfl
    | ensure ensured =>
        exact inv.setStage (inv.store.ensureEmbeddingSpace ensured) ⟨own, by simp [Stage.queue]⟩
    | @save vector saved record queue failed rest _ enough stored =>
        subst enough
        simp only [SavesCurrent, running] at saves
        obtain ⟨table, dimensions⟩ := VectorStore.setEmbedding_takes_place stored
        obtain ⟨current, member, named, text⟩ := saves table dimensions
        have embedded : saved = embedder.embed current.content := by
          rw [text]
          exact queued (record, saved) (List.mem_cons_self ..)
        exact inv.setStage (inv.store.setEmbedding member named embedded stored)
          ⟨own, fun pair later => queued pair (List.mem_cons_of_mem _ later)⟩
    | carry kept fresh =>
        refine inv.setStage inv.store ⟨fun given member => ?_, fun pair member => ?_⟩
        · rcases kept with lost | kept
          · rw [lost] at member
            cases member
          · rw [kept] at member
            exact own given member
        · exact (fresh pair member).elim (queued pair) id
  · rw [same]
    rcases stored with rfl | ⟨vector, result, rfl, _, stored⟩
    · exact inv.finish inv.store
    · exact inv.finish (storeRequest_current inv.store own stored)

/-- Every step keeps the invariant if the vector it saves is current. -/
theorem MemoryInvariant.step (inv : MemoryInvariant embedder s) {action : MemoryAction}
    (saves : s.SavesCurrent embedder action)
    (stepped : memoryStep (some embedder) s action = some t) :
    MemoryInvariant embedder t := by
  cases action with
  | start number request =>
      simp only [memoryStep] at stepped
      split at stepped
      · simp at stepped
      · cases stepped
        unfold startCall
        split
        · exact ⟨inv.store, inv.calls⟩
        · refine inv.setStage inv.store ⟨fun given member => ?_, fun pair member => ?_⟩
          · split at member <;> simp [Stage.vector] at member
          · split at member <;> simp [Stage.queue] at member
  | advance number answer dbOk =>
      obtain ⟨call, running, rfl⟩ := Option.map_eq_some_iff.mp stepped
      exact inv.advance running saves
  | abandon number =>
      simp only [memoryStep] at stepped
      split at stepped
      · cases stepped
        refine ⟨inv.store, fun other call running => ?_⟩
        simp only [Function.update_apply] at running
        split at running
        · simp at running
        · exact inv.calls other call running
      · simp at stepped
  | tick =>
      cases stepped
      exact ⟨inv.store, inv.calls⟩

/-- If every vector that a back-fill saves belongs to a note that still has the text it read,
then every stored vector is the embedding of the present text of a note, and no new note
finds a vector under its id. -/
theorem vectors_current
    (reached : (memoryMachine (some embedder)).ReachableUnder (SavesCurrent embedder) s) :
    (∀ rows, s.store.vectors = some rows → ∀ row ∈ rows,
      ∃ record ∈ s.store.memories, record.id = row.1 ∧ row.2 = embedder.embed record.content) ∧
    ∀ now content vector, s.store.insert embedder.size now content vector ≠
      .error uniqueConstraint := by
  have inv : MemoryInvariant embedder s := by
    apply reached.invariant
    · intro first start
      exact ⟨start.1 embedder rfl, fun number call running => by simp [start.2 number] at running⟩
    · intro before action after inv saves stepped
      exact inv.step saves stepped
  exact ⟨inv.store.current, fun now content vector =>
    inv.store.insert_ne_uniqueConstraint now content vector⟩

end Invariant

/-- This embedder of the sample runs counts the characters of a text. -/
def lengthEmbedder : Embedder (List Nat) := ⟨"length", fun text => [text.length], List.length⟩

/-- A memory on an empty file. -/
def emptyMemory : LongTermMemory (List Nat) := ⟨⟨[], none, none, none⟩, [], fun _ => none, none, 0⟩

theorem emptyMemory_start : (memoryMachine (some lengthEmbedder)).start emptyMemory := by
  refine ⟨fun given _ => ⟨by simp [emptyMemory], fun rows present => ?_⟩, fun _ => rfl⟩
  simp [emptyMemory] at present

/-- A note is saved while the provider fails, and a search reads its text in order to embed it. -/
def pendingNote : List MemoryAction :=
  [.start 0 (.remember "tea"), .advance 0 .transient true, .advance 0 .transient true,
    .start 1 (.search "drinks" 5), .advance 1 .vectors true, .advance 1 .vectors true,
    .advance 1 .vectors true, .advance 1 .vectors true, .advance 1 .vectors true]

/-- The note is edited, or forgotten, before the search saves the vector of its old text. A note
that is remembered later then finds a vector under its id. -/
theorem stale_vector :
    (∃ s, (memoryMachine (some lengthEmbedder)).Reachable s ∧
        s.store.memories = [⟨1, "coffee", 0⟩] ∧
      s.store.vectors = some [(1, lengthEmbedder.embed "tea")] ∧
      lengthEmbedder.embed "tea" ≠ lengthEmbedder.embed "coffee") ∧
    ∃ s, (memoryMachine (some lengthEmbedder)).Reachable s ∧ s.store.memories = [] ∧
      s.store.vectors = some [(1, lengthEmbedder.embed "tea")] ∧
        s.outcome = some (.error uniqueConstraint) := by
  have edited : (memoryMachine (some lengthEmbedder)).exec emptyMemory (pendingNote ++
    [.start 2 (.edit 1 "coffee"), .advance 2 .transient true, .advance 2 .transient true,
      .advance 1 .vectors true]) = some _ := rfl
  have forgotten : (memoryMachine (some lengthEmbedder)).exec emptyMemory (pendingNote ++
    [.start 2 (.forget 1), .advance 2 .vectors true, .advance 1 .vectors true,
      .start 3 (.remember "milk"), .advance 3 .vectors true, .advance 3 .vectors true,
      .advance 3 .vectors true, .advance 3 .vectors true,
      .advance 3 .vectors true, .advance 3 .vectors true]) = some _ := rfl
  exact ⟨⟨_, Machine.reachable_of_exec emptyMemory_start edited, rfl, rfl, by decide⟩,
    ⟨_, Machine.reachable_of_exec emptyMemory_start forgotten, rfl, rfl, rfl⟩⟩

/-- Without an edit in between, the search stores the vector of the note. -/
theorem vectors_current_sample : ∃ s : LongTermMemory (List Nat),
    s.store.vectors = some [(1, lengthEmbedder.embed "tea")] ∧
    (∀ rows, s.store.vectors = some rows → ∀ row ∈ rows,
      ∃ record ∈ s.store.memories, record.id = row.1 ∧
        row.2 = lengthEmbedder.embed record.content) ∧
    ∀ now content vector, s.store.insert lengthEmbedder.size now content vector ≠
      .error uniqueConstraint := by
  have executed : (memoryMachine (some lengthEmbedder)).exec emptyMemory
    (pendingNote ++ [.advance 1 .vectors true]) = some _ := rfl
  have permitted : (memoryMachine (some lengthEmbedder)).Permits (SavesCurrent lengthEmbedder)
      emptyMemory
      (pendingNote ++ [.advance 1 .vectors true]) := by
    repeat
      refine Machine.permits_cons trivial rfl ?_
    exact ⟨fun _ _ => ⟨⟨1, "tea", 0⟩, List.mem_singleton_self _, rfl, rfl⟩, fun _ _ => trivial⟩
  exact ⟨_, rfl, vectors_current ⟨emptyMemory, emptyMemory_start,
    Machine.exec_runs permitted executed⟩⟩

end LongTermMemory

end Openheim.Rag
