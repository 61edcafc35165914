import Openheim.Core.Error

/-
This file follows `src/rag/store.rs`: the tables of the memory database and the transactions on
them.
-/

namespace Openheim.Rag

/-- One remembered note. -/
structure MemoryRecord where
  id : Nat
  content : String
  createdAt : Instant
  deriving DecidableEq, Repr

/-- The notes in the order of their ids, and one vector for each embedded note. The vector table is
missing until an embedder fixed the vector space. -/
structure VectorStore (V : Type) where
  memories : List MemoryRecord
  vectors : Option (List (Nat × V))
  model : Option String
  dimensions : Option Nat
  deriving DecidableEq, Repr

/-- The database already has a vector under the id. -/
def uniqueConstraint : Error :=
  .databaseError "UNIQUE constraint failed on vec_memories primary key"

def noVectorTable : Error := .databaseError "no such table: vec_memories"

def dimensionMismatch : Error := .databaseError "Dimension mismatch for inserted vector"

namespace VectorStore
section Transactions
variable {V : Type} (size : V → Nat) (store : VectorStore V)

/-- SQLite gives a new row the id after the largest one. -/
def nextId : Nat := (store.memories.map MemoryRecord.id).foldr max 0 + 1

/-- The note has a vector. -/
def isEmbedded (id : Nat) : Bool := (store.vectors.getD []).any fun row => row.1 = id

/-- The vector table takes one vector of its dimension for each id. -/
def insertVector (id : Nat) (vector : V) : Except Error (VectorStore V) :=
  match store.vectors with
  | none => .error noVectorTable
  | some rows =>
      if rows.any fun row => row.1 = id then .error uniqueConstraint
      else if store.dimensions ≠ some (size vector) then .error dimensionMismatch
      else .ok { store with vectors := some (rows ++ [(id, vector)]) }

def deleteVector (id : Nat) : VectorStore V :=
  { store with vectors := store.vectors.map fun rows => rows.filter fun row => row.1 ≠ id }

/-- Makes the vector space that of the given model and dimension, and says
whether it was another one before. -/
def ensureEmbeddingSpace (model : String) (dimensions : Nat) :
    Except Error (Bool × VectorStore V) :=
  if dimensions = 0 then .error (.apiError "embeddings provider returned an empty vector")
  else if store.model = some model ∧ store.dimensions = some dimensions ∧ store.vectors.isSome then
    .ok (false, store)
  else
    .ok (store.model.isSome || store.dimensions.isSome,
      { store with vectors := some [], model := some model, dimensions := some dimensions })

/-- The oldest notes without a vector. -/
def unembeddedUpTo (limit : Nat) : List MemoryRecord :=
  (store.memories.filter fun record => !store.isEmbedded record.id).take limit

/-- Stores a note, with its embedding when one is available. -/
def insert (now : Instant) (content : String) (embedding : Option V) :
    Except Error (MemoryRecord × VectorStore V) :=
  if embedding.isSome ∧ store.vectors.isNone then
    .error (.databaseError "vector table not initialised; call ensure_embedding_space first")
  else
    let record : MemoryRecord := ⟨store.nextId, content, now⟩
    let stored := { store with memories := store.memories ++ [record] }
    match embedding with
    | some vector => (stored.insertVector size record.id vector).map fun store => (record, store)
    | none => .ok (record, stored)

/-- Rewrites the text of a note, and its vector when one is available. -/
def update (id : Nat) (content : String) (embedding : Option V) :
    Except Error (Option MemoryRecord × VectorStore V) :=
  if embedding.isSome ∧ store.vectors.isNone then
    .error (.databaseError "vector table not initialised; call ensure_embedding_space first")
  else
    match store.memories.find? fun record => record.id = id with
    | none => .ok (none, store)
    | some found =>
        let rewrite := fun record : MemoryRecord => if record.id = id then { record with content }
          else record
        let written := { store with memories := store.memories.map rewrite }.deleteVector id
        match embedding with
        | some vector => (written.insertVector size id vector).map fun store =>
            (some { found with content }, store)
        | none => .ok (some { found with content }, written)

/-- Writes the vector of a note, whether or not the note exists. -/
def setEmbedding (id : Nat) (vector : V) : Except Error (VectorStore V) :=
  if store.vectors.isNone then .error noVectorTable
  else (store.deleteVector id).insertVector size id vector

/-- Removes a note and its vector, and says whether the note existed. -/
def delete (id : Nat) : Bool × VectorStore V :=
  (store.memories.any fun record => record.id = id,
    { store with memories := store.memories.filter fun record => record.id ≠ id }.deleteVector id)

end Transactions

/-- Each vector is the embedding of the present text of a note, and no
two notes have the same id. -/
structure Current {V : Type} (embed : String → V) (store : VectorStore V) : Prop where
  distinct : (store.memories.map MemoryRecord.id).Nodup
  current : ∀ rows, store.vectors = some rows → ∀ row ∈ rows,
    ∃ record ∈ store.memories, record.id = row.1 ∧ row.2 = embed record.content

/-- A transaction whose result is passed on succeeded. -/
theorem map_eq_ok {E A B : Type} {f : A → B} {run : Except E A} {b : B}
    (mapped : run.map f = .ok b) :
    ∃ a, run = .ok a ∧ f a = b := by
  cases run with
  | error error => cases mapped
  | ok a => exact ⟨a, rfl, Except.ok.inj mapped⟩

section Preservation
variable {V : Type} {embed : String → V} {size : V → Nat} {store after : VectorStore V}

theorem id_lt_nextId {record : MemoryRecord} (member : record ∈ store.memories) :
    record.id < store.nextId := by
  have bound : ∀ ids : List Nat, record.id ∈ ids → record.id ≤ ids.foldr max 0 := by
    intro ids inside
    induction ids with
    | nil => simp at inside
    | cons first ids ih =>
        rw [List.foldr_cons]
        rcases List.mem_cons.mp inside with same | rest
        · omega
        · have later := ih rest
          omega
  exact Nat.lt_succ_of_le (bound _ (List.mem_map_of_mem member))

/-- A row that the vector table gains is the only new one. -/
theorem insertVector_eq {id : Nat} {vector : V}
    (stored : store.insertVector size id vector = .ok after) :
    after.memories = store.memories ∧
      ∃ rows, store.vectors = some rows ∧ after.vectors = some (rows ++ [(id, vector)]) := by
  unfold insertVector at stored
  cases present : store.vectors with
  | none => simp [present] at stored
  | some rows =>
      simp only [present] at stored
      split at stored
      · simp at stored
      · split at stored
        · simp at stored
        · cases stored
          exact ⟨rfl, rows, rfl, rfl⟩

/-- A vector that is saved finds the table with its dimension. -/
theorem setEmbedding_takes_place {id : Nat} {vector : V}
    (stored : store.setEmbedding size id vector = .ok after) :
    store.vectors.isSome ∧ store.dimensions = some (size vector) := by
  unfold setEmbedding at stored
  cases present : store.vectors with
  | none =>
      rw [present] at stored
      cases stored
  | some rows =>
      refine ⟨rfl, ?_⟩
      rw [present] at stored
      simp only [Option.isNone_some, deleteVector, insertVector, present, Option.map_some] at stored
      split at stored
      · cases stored
      · split at stored
        · cases stored
        · split at stored
          · cases stored
          · next fits => exact not_ne_iff.mp fits

/-- What storing a note did. -/
theorem insert_cases {now : Instant} {content : String} {embedding : Option V}
    {record : MemoryRecord}
    (stored : store.insert size now content embedding = .ok (record, after)) :
    (embedding = none ∧
        after = { store with memories := store.memories ++ [⟨store.nextId, content, now⟩] }) ∨
      ∃ vector, embedding = some vector ∧
        ({ store with memories := store.memories ++ [⟨store.nextId, content, now⟩] } :
            VectorStore V).insertVector
          size store.nextId vector = .ok after := by
  unfold VectorStore.insert at stored
  split at stored
  · cases stored
  · cases embedding with
    | none =>
        cases stored
        exact .inl ⟨rfl, rfl⟩
    | some vector =>
        obtain ⟨final, written, equal⟩ := map_eq_ok stored
        cases equal
        exact .inr ⟨vector, rfl, written⟩

/-- The store with another text in the note of an id. -/
def withContent (store : VectorStore V) (id : Nat) (content : String) : VectorStore V :=
  { store with memories := store.memories.map fun record => if record.id = id then { record with
    content } else record }

theorem withContent_ids (store : VectorStore V) (id : Nat) (content : String) :
    (store.withContent id content).memories.map MemoryRecord.id =
      store.memories.map MemoryRecord.id := by
  rw [withContent, List.map_map]
  refine List.map_congr_left fun record _ => ?_
  simp only [Function.comp]
  split <;> rfl

/-- What rewriting a note did. -/
theorem update_cases {id : Nat} {content : String} {embedding : Option V}
    {result : Option MemoryRecord}
    (stored : store.update size id content embedding = .ok (result, after)) :
    after = store ∨ ∃ found ∈ store.memories, found.id = id ∧
      ((embedding = none ∧ after = (store.withContent id content).deleteVector id) ∨
        ∃ vector, embedding = some vector ∧
          ((store.withContent id content).deleteVector id).insertVector size id vector =
            .ok after) := by
  unfold VectorStore.update at stored
  split at stored
  · cases stored
  · cases present : store.memories.find? fun record => record.id = id with
    | none =>
        simp only [present] at stored
        cases stored
        exact .inl rfl
    | some found =>
        simp only [present] at stored
        have named : found.id = id := by simpa using List.find?_some present
        refine .inr ⟨found, List.mem_of_find?_eq_some present, named, ?_⟩
        cases embedding with
        | none =>
            cases stored
            exact .inl ⟨rfl, rfl⟩
        | some vector =>
            obtain ⟨final, written, equal⟩ := map_eq_ok stored
            cases equal
            exact .inr ⟨vector, rfl, written⟩

/-- A vector may be stored for a note whose text it embeds. -/
theorem Current.insertVector (current : Current embed store) {id : Nat} {vector : V}
    {record : MemoryRecord}
    (member : record ∈ store.memories) (named : record.id = id)
    (same : vector = embed record.content)
    (stored : store.insertVector size id vector = .ok after) : Current embed after := by
  obtain ⟨memories, rows, before, rest⟩ := insertVector_eq stored
  refine ⟨by rw [memories]; exact current.distinct, fun found present row inside => ?_⟩
  rw [rest, Option.some.injEq] at present
  rw [memories]
  rw [← present] at inside
  rcases List.mem_append.mp inside with old | new
  · exact current.current rows before row old
  · rw [List.mem_singleton.mp new]
    exact ⟨record, member, named, same⟩

theorem Current.deleteVector (current : Current embed store) (id : Nat) :
    Current embed (store.deleteVector id) := by
  refine ⟨current.distinct, fun rows present row inside => ?_⟩
  obtain ⟨before, found, rfl⟩ := Option.map_eq_some_iff.mp present
  exact current.current before found row (List.mem_filter.mp inside).1

/-- A new vector space starts without vectors. -/
theorem Current.ensureEmbeddingSpace (current : Current embed store) {model : String}
    {dimensions : Nat} {reset : Bool}
    (ensured : store.ensureEmbeddingSpace model dimensions = .ok (reset, after)) :
    Current embed after := by
  unfold VectorStore.ensureEmbeddingSpace at ensured
  split at ensured
  · simp at ensured
  · split at ensured
    · cases ensured
      exact current
    · cases ensured
      refine ⟨current.distinct, fun rows present row inside => ?_⟩
      cases present
      simp at inside

/-- A note is stored with the embedding of its text or with none. -/
theorem Current.insert (current : Current embed store) {now : Instant} {content : String}
    {embedding : Option V}
    {record : MemoryRecord} (same : ∀ vector ∈ embedding, vector = embed content)
    (stored : store.insert size now content embedding = .ok (record, after)) :
    Current embed after := by
  have added :
      Current embed { store with
      memories := store.memories ++ [⟨store.nextId, content, now⟩] } := by
    refine ⟨?_, fun rows present row inside => ?_⟩
    · rw [List.map_append, List.nodup_append]
      refine ⟨current.distinct, by simp, ?_⟩
      intro id old new fresh
      obtain ⟨found, member, rfl⟩ := List.mem_map.mp old
      have below := id_lt_nextId member
      simp only [List.map_cons, List.map_nil, List.mem_singleton] at fresh
      omega
    · obtain ⟨found, member, rest⟩ := current.current rows present row inside
      exact ⟨found, List.mem_append_left _ member, rest⟩
  rcases insert_cases stored with ⟨-, rfl⟩ | ⟨vector, rfl, written⟩
  · exact added
  · exact added.insertVector (List.mem_append_right _ (List.mem_singleton_self _)) rfl
      (same vector rfl) written

/-- A note gets a new text with its embedding or with none. -/
theorem Current.update (current : Current embed store) {id : Nat} {content : String}
    {embedding : Option V}
    {result : Option MemoryRecord} (same : ∀ vector ∈ embedding, vector = embed content)
    (stored : store.update size id content embedding = .ok (result, after)) :
    Current embed after := by
  rcases update_cases stored with rfl | ⟨found, known, named, wrote⟩
  · exact current
  have rewritten : Current embed ((store.withContent id content).deleteVector id) := by
    refine ⟨?_, fun rows kept row inside => ?_⟩
    · show ((store.withContent id content).memories.map MemoryRecord.id).Nodup
      rw [withContent_ids]
      exact current.distinct
    · obtain ⟨before, stays, rfl⟩ := Option.map_eq_some_iff.mp kept
      obtain ⟨old, other⟩ := List.mem_filter.mp inside
      obtain ⟨record, member, owner, text⟩ := current.current before stays row old
      have apart : record.id ≠ id := by simpa [owner] using other
      exact ⟨record, List.mem_map.mpr ⟨record, member, by simp [apart]⟩, owner, text⟩
  rcases wrote with ⟨-, rfl⟩ | ⟨vector, rfl, written⟩
  · exact rewritten
  · exact rewritten.insertVector (List.mem_map.mpr ⟨found, known, if_pos named⟩) named
      (same vector rfl) written

/-- A note that is deleted takes its vector with it. -/
theorem Current.delete (current : Current embed store) (id : Nat) :
    Current embed (store.delete id).2 := by
  refine ⟨?_, fun rows kept row inside => ?_⟩
  · exact current.distinct.sublist (List.filter_sublist.map MemoryRecord.id)
  · obtain ⟨before, stays, rfl⟩ := Option.map_eq_some_iff.mp kept
    obtain ⟨old, other⟩ := List.mem_filter.mp inside
    obtain ⟨record, member, owner, text⟩ := current.current before stays row old
    exact ⟨record, List.mem_filter.mpr ⟨member, by simpa [owner] using other⟩, owner, text⟩

/-- A vector of the present text may replace the one of its note. -/
theorem Current.setEmbedding (current : Current embed store) {id : Nat} {vector : V}
    {record : MemoryRecord}
    (member : record ∈ store.memories) (named : record.id = id)
    (same : vector = embed record.content)
    (stored : store.setEmbedding size id vector = .ok after) : Current embed after := by
  unfold VectorStore.setEmbedding at stored
  split at stored
  · simp at stored
  · exact (current.deleteVector id).insertVector member named same stored

/-- A new note has an id without a vector. -/
theorem Current.insert_ne_uniqueConstraint (current : Current embed store) (now : Instant)
    (content : String)
    (embedding : Option V) : store.insert size now content embedding ≠ .error uniqueConstraint := by
  intro failed
  unfold VectorStore.insert at failed
  split at failed
  · simp [uniqueConstraint] at failed
  · cases embedding with
    | none => simp at failed
    | some vector =>
        unfold VectorStore.insertVector at failed
        cases present : store.vectors with
        | none => simp [present, Except.map, noVectorTable, uniqueConstraint] at failed
        | some rows =>
            simp only [present] at failed
            split at failed
            · rename_i taken
              obtain ⟨row, inside, same⟩ := List.any_eq_true.mp taken
              obtain ⟨record, member, owner, _⟩ := current.current rows present row inside
              have below := id_lt_nextId member
              simp only [decide_eq_true_eq] at same
              omega
            · split at failed <;> simp [Except.map, dimensionMismatch, uniqueConstraint] at failed

end Preservation

end VectorStore

end Openheim.Rag
