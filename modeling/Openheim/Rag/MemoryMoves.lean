import Openheim.Rag.Memory

/-
What one step of a call does to the store and to the vectors that the call carries, said once for
every stage.
-/

namespace Openheim.Rag

/-- The vector of its own text that a call carries. -/
def Stage.vector {V : Type} : Stage V → Option V
  | .embedding => none
  | .ensuring vector | .snapshot vector | .reading vector _ | .batches vector _
  | .singles vector _ _ _
  | .saving vector _ _ _ => some vector
  | .storing vector => vector

/-- The vectors of other notes that a call is about to save. -/
def Stage.queue {V : Type} : Stage V → List (MemoryRecord × V)
  | .singles _ _ done _ => done
  | .saving _ queue _ _ => queue
  | _ => []

section Moves
variable {V : Type} {embedder : Embedder V} {s : LongTermMemory V} {request : Request}
  {answer : Answer} {dbOk : Bool}

/-- A step embeds the text of its call, makes the space ready, saves one vector of another note, or
leaves the store alone. In the last case the call carries its own vector on or loses it, and what
joins its queue is embedded. -/
inductive StageMoves (embedder : Embedder V) (store : VectorStore V) (request : Request)
    (dbOk : Bool) :
    Stage V → VectorStore V → Stage V → Prop where
  | embed {text : String} (asked : request.text = some text) :
      StageMoves embedder store request dbOk .embedding store (.ensuring (embedder.embed text))
  | ensure {vector : V} {switched : Bool} {next : VectorStore V}
      (ensured : store.ensureEmbeddingSpace embedder.model (embedder.size vector) =
        .ok (switched, next)) :
      StageMoves embedder store request dbOk (.ensuring vector) next (.snapshot vector)
  | save {vector saved : V} {record : MemoryRecord} {queue : List (MemoryRecord × V)}
      {failed : Bool}
      {rest : List MemoryRecord} {next : VectorStore V} (enough : dbOk = true)
      (stored : store.setEmbedding embedder.size record.id saved = .ok next) :
      StageMoves embedder store request dbOk
        (.saving vector ((record, saved) :: queue) failed rest) next
        (.saving vector queue failed rest)
  | carry {stage next : Stage V} (own : next.vector = none ∨ next.vector = stage.vector)
      (queued : ∀ pair ∈ next.queue, pair ∈ stage.queue ∨ pair.2 = embedder.embed pair.1.content) :
      StageMoves embedder store request dbOk stage store next

/-- A call that carries nothing to save and its own vector, or none. -/
theorem StageMoves.idle {store : VectorStore V} {stage next : Stage V}
    (own : next.vector = none ∨ next.vector = stage.vector) (empty : next.queue = []) :
    StageMoves embedder store request dbOk stage store next := by
  refine .carry own fun pair member => ?_
  rw [empty] at member
  cases member

/-- A step of a call moves its stage or ends it, with its own transaction or without. -/
theorem advanceWith_moves (embedder : Embedder V) (s : LongTermMemory V) (number : Nat)
    (request : Request) (stage : Stage V) (answer : Answer) (dbOk : Bool) :
    (∃ store rejected next,
      LongTermMemory.advanceWith embedder s number ⟨request, stage⟩ answer dbOk =
        { s with store, rejected }.setStage number request next ∧
      StageMoves embedder s.store request dbOk stage store next) ∨
      ∃ store outcome, LongTermMemory.advanceWith embedder s number ⟨request, stage⟩ answer dbOk =
          { s with store }.finish number outcome ∧
        (store = s.store ∨ ∃ vector result, stage = .storing vector ∧ dbOk = true ∧
          LongTermMemory.storeRequest embedder.size s vector request = .ok (result, store)) := by
  cases stage with
  | embedding =>
      left
      simp only [LongTermMemory.advanceWith]
      split
      · next asked => exact ⟨_, _, _, rfl, .embed asked⟩
      · exact ⟨_, _, _, rfl, .idle (.inl rfl) rfl⟩
  | ensuring vector =>
      left
      simp only [LongTermMemory.advanceWith]
      split
      · next ensured => exact ⟨_, _, _, rfl, .ensure ensured⟩
      · exact ⟨_, _, _, rfl, .idle (.inl rfl) rfl⟩
  | snapshot vector => exact .inl ⟨_, _, _, rfl, .idle (.inr rfl) rfl⟩
  | reading vector rejected =>
      left
      simp only [LongTermMemory.advanceWith]
      split
      · exact ⟨_, _, _, rfl, .idle (.inr rfl) rfl⟩
      · exact ⟨_, _, _, rfl, .idle (.inr rfl) rfl⟩
  | batches vector pending =>
      left
      simp only [LongTermMemory.advanceWith]
      split
      · exact ⟨_, _, _, rfl, .idle (.inr rfl) rfl⟩
      · cases answer with
        | vectors =>
            refine ⟨_, _, _, rfl, .carry (.inr rfl) fun pair member => ?_⟩
            obtain ⟨record, _, rfl⟩ := List.mem_map.mp member
            exact .inr rfl
        | transient => exact ⟨_, _, _, rfl, .idle (.inr rfl) rfl⟩
        | refused => exact ⟨_, _, _, rfl, .idle (.inr rfl) rfl⟩
  | singles vector todo finished rest =>
      left
      cases todo with
      | nil => exact ⟨_, _, _, rfl, .carry (.inr rfl) fun _ => .inl⟩
      | cons record todo =>
          cases answer with
          | vectors =>
              refine ⟨_, _, _, rfl, .carry (.inr rfl) fun pair member => ?_⟩
              rcases List.mem_append.mp member with earlier | last
              · exact .inl earlier
              · rw [List.mem_singleton.mp last]
                exact .inr rfl
          | transient => exact ⟨_, _, _, rfl, .carry (.inr rfl) fun _ => .inl⟩
          | refused => exact ⟨_, _, _, rfl, .carry (.inr rfl) fun _ => .inl⟩
  | saving vector queue failed rest =>
      left
      cases queue with
      | nil =>
          simp only [LongTermMemory.advanceWith]
          split
          · exact ⟨_, _, _, rfl, .idle (.inr rfl) rfl⟩
          · exact ⟨_, _, _, rfl, .idle (.inr rfl) rfl⟩
      | cons pair queue =>
          obtain ⟨record, saved⟩ := pair
          simp only [LongTermMemory.advanceWith]
          split
          · next stored => exact ⟨_, _, _, rfl, .save rfl stored⟩
          · exact ⟨_, _, _, rfl, .idle (.inr rfl) rfl⟩
  | storing vector =>
      right
      simp only [LongTermMemory.advanceWith]
      split
      · next stored => exact ⟨_, _, rfl, .inr ⟨vector, _, rfl, rfl, stored⟩⟩
      · exact ⟨_, _, rfl, .inl rfl⟩
      · exact ⟨_, _, rfl, .inl rfl⟩

end Moves

end Openheim.Rag
