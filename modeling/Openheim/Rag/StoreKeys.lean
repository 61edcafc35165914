import Mathlib.Data.List.Nodup
import Openheim.Rag.MemoryMoves

/-
What any step does to the tables of the memory database, and that both tables keep their primary
keys.
-/

namespace Openheim.Rag

namespace VectorStore
variable {V : Type}

/-- The transactions on a memory database. -/
inductive Moves (size : V → Nat) (store : VectorStore V) : VectorStore V → Prop where
  | same : Moves size store store
  | ensureEmbeddingSpace {model : String} {dimensions : Nat} {switched : Bool}
      {after : VectorStore V}
      (ensured : store.ensureEmbeddingSpace model dimensions = .ok (switched, after)) :
      Moves size store after
  | setEmbedding {id : Nat} {vector : V} {after : VectorStore V}
      (stored : store.setEmbedding size id vector = .ok after) : Moves size store after
  | insert {now : Instant} {content : String} {embedding : Option V} {record : MemoryRecord}
      {after : VectorStore V}
      (stored : store.insert size now content embedding = .ok (record, after)) :
      Moves size store after
  | update {id : Nat} {content : String} {embedding : Option V} {record : Option MemoryRecord}
      {after : VectorStore V}
      (stored : store.update size id content embedding = .ok (record, after)) :
      Moves size store after
  | delete (id : Nat) : Moves size store (store.delete id).2

/-- No two notes have the same id, and no two vectors. -/
structure Keyed (store : VectorStore V) : Prop where
  memories : (store.memories.map MemoryRecord.id).Nodup
  vectors : ((store.vectors.getD []).map Prod.fst).Nodup

section Keys
variable {size : V → Nat} {store after : VectorStore V} {id : Nat}

/-- A row that the vector table gains has a new id. -/
theorem insertVector_fresh {vector : V} (stored : store.insertVector size id vector = .ok after) :
    id ∉ (store.vectors.getD []).map Prod.fst := by
  unfold insertVector at stored
  cases present : store.vectors with
  | none => simp
  | some rows =>
      simp only [present] at stored
      split at stored
      · cases stored
      · next free =>
        intro inside
        obtain ⟨row, member, same⟩ := List.mem_map.mp inside
        exact free (List.any_eq_true.mpr ⟨row, member, decide_eq_true same⟩)

theorem Keyed.insertVector (keyed : store.Keyed) {vector : V}
    (stored : store.insertVector size id vector = .ok after) : after.Keyed := by
  obtain ⟨memories, rows, before, now⟩ := insertVector_eq stored
  have fresh := insertVector_fresh stored
  have distinct := keyed.vectors
  rw [before, Option.getD_some] at fresh distinct
  refine ⟨memories ▸ keyed.memories, ?_⟩
  rw [now, Option.getD_some, List.map_append, List.map_singleton]
  exact List.nodup_append.mpr ⟨distinct, List.nodup_singleton _, fun old inside new same => by
    rw [List.mem_singleton.mp same]
    exact fun equal => fresh (by rwa [equal] at inside)⟩

theorem Keyed.deleteVector (keyed : store.Keyed) (id : Nat) : (store.deleteVector id).Keyed := by
  refine ⟨keyed.memories, ?_⟩
  have distinct := keyed.vectors
  cases present : store.vectors with
  | none => simp [VectorStore.deleteVector, present]
  | some rows =>
      rw [present, Option.getD_some] at distinct
      simp only [VectorStore.deleteVector, present, Option.map_some, Option.getD_some]
      exact distinct.sublist (List.filter_sublist.map Prod.fst)

theorem Keyed.ensureEmbeddingSpace (keyed : store.Keyed) {model : String} {dimensions : Nat}
    {switched : Bool}
    (ensured : store.ensureEmbeddingSpace model dimensions = .ok (switched, after)) :
    after.Keyed := by
  unfold VectorStore.ensureEmbeddingSpace at ensured
  split at ensured
  · cases ensured
  · split at ensured
    · cases ensured
      exact keyed
    · cases ensured
      exact ⟨keyed.memories, List.nodup_nil⟩

theorem Keyed.setEmbedding (keyed : store.Keyed) {vector : V}
    (stored : store.setEmbedding size id vector = .ok after) :
    after.Keyed := by
  unfold VectorStore.setEmbedding at stored
  split at stored
  · cases stored
  · exact (keyed.deleteVector id).insertVector stored

/-- A new note comes after the others. -/
theorem Keyed.insert (keyed : store.Keyed) {now : Instant} {content : String} {embedding : Option V}
    {record : MemoryRecord}
    (stored : store.insert size now content embedding = .ok (record, after)) :
    after.Keyed := by
  have added :
      Keyed { store with memories := store.memories ++ [⟨store.nextId, content, now⟩] } := by
    refine ⟨?_, keyed.vectors⟩
    rw [List.map_append, List.map_singleton]
    refine List.nodup_append.mpr ⟨keyed.memories, List.nodup_singleton _,
      fun old inside new same => ?_⟩
    obtain ⟨note, member, rfl⟩ := List.mem_map.mp inside
    rw [List.mem_singleton.mp same]
    exact Nat.ne_of_lt (id_lt_nextId member)
  rcases insert_cases stored with ⟨-, rfl⟩ | ⟨vector, rfl, written⟩
  · exact added
  · exact added.insertVector written

/-- A new text leaves the ids as they are. -/
theorem Keyed.update (keyed : store.Keyed) {content : String} {embedding : Option V}
    {result : Option MemoryRecord}
    (stored : store.update size id content embedding = .ok (result, after)) : after.Keyed := by
  have rewritten : (store.withContent id content).Keyed := by
    refine ⟨?_, keyed.vectors⟩
    rw [withContent_ids]
    exact keyed.memories
  rcases update_cases stored with rfl | ⟨found, -, -, ⟨-, rfl⟩ | ⟨vector, rfl, written⟩⟩
  · exact keyed
  · exact rewritten.deleteVector id
  · exact (rewritten.deleteVector id).insertVector written

theorem Keyed.delete (keyed : store.Keyed) (id : Nat) : (store.delete id).2.Keyed := by
  have fewer :
      Keyed { store with memories := store.memories.filter fun record => record.id ≠ id } :=
    ⟨keyed.memories.sublist (List.filter_sublist.map _), keyed.vectors⟩
  exact fewer.deleteVector id

/-- Every transaction keeps the primary keys. -/
theorem Keyed.moves (keyed : store.Keyed) (moved : store.Moves size after) : after.Keyed := by
  cases moved with
  | same => exact keyed
  | ensureEmbeddingSpace ensured => exact keyed.ensureEmbeddingSpace ensured
  | setEmbedding stored => exact keyed.setEmbedding stored
  | insert stored => exact keyed.insert stored
  | update stored => exact keyed.update stored
  | delete id => exact keyed.delete id

end Keys

end VectorStore

namespace LongTermMemory
variable {V : Type} {s t : LongTermMemory V}

/-- The transaction of a call is one on the store. -/
theorem storeRequest_moves {size : V → Nat} {vector : Option V} {request : Request}
    {outcome : Outcome}
    {store : VectorStore V} (stored : storeRequest size s vector request = .ok (outcome, store)) :
    s.store.Moves size store := by
  cases request with
  | remember content =>
      obtain ⟨result, written, equal⟩ := VectorStore.map_eq_ok stored
      cases equal
      exact .insert written
  | edit id content =>
      obtain ⟨result, written, equal⟩ := VectorStore.map_eq_ok stored
      cases equal
      exact .update written
  | forget id =>
      cases stored
      exact .delete id
  | search query topK =>
      cases stored
      exact .same

/-- A step makes at most one transaction. -/
theorem memoryStep_moves {embedder : Option (Embedder V)} {action : MemoryAction}
    (stepped : memoryStep embedder s action = some t) : ∃ size, s.store.Moves size t.store := by
  cases action with
  | start number request =>
      simp only [memoryStep] at stepped
      split at stepped
      · cases stepped
      · cases stepped
        refine ⟨fun _ => 0, ?_⟩
        unfold startCall
        split <;> exact .same
  | advance number answer dbOk =>
      obtain ⟨⟨request, stage⟩, _, rfl⟩ := Option.map_eq_some_iff.mp stepped
      cases embedder with
      | none =>
          refine ⟨fun _ => 0, ?_⟩
          simp only [advanceWithout]
          split
          · next stored => exact storeRequest_moves stored
          · exact .same
          · exact .same
      | some given =>
          refine ⟨given.size, ?_⟩
          obtain ⟨store, rejected, next, same, moved⟩ | ⟨store, outcome, same, stored⟩ :=
            advanceWith_moves given s number request stage answer dbOk
          · simp only [same]
            cases moved with
            | embed _ => exact .same
            | ensure ensured => exact .ensureEmbeddingSpace ensured
            | save _ stored => exact .setEmbedding stored
            | carry _ _ => exact .same
          · simp only [same]
            rcases stored with rfl | ⟨_, _, _, _, stored⟩
            · exact .same
            · exact storeRequest_moves stored
  | abandon number =>
      simp only [memoryStep] at stepped
      split at stepped
      · cases stepped
        exact ⟨fun _ => 0, .same⟩
      · cases stepped
  | tick =>
      cases stepped
      exact ⟨fun _ => 0, .same⟩

end LongTermMemory

end Openheim.Rag
