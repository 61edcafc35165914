import Openheim.Rag.Memory

/-
This file follows `search_detailed` of `src/rag/mod.rs` with the queries of `src/rag/store.rs`. The
queries of one search lock the store one after the other, and other calls may take steps in between.
-/

namespace Openheim.Rag

/-- How a hit was found. -/
inductive SearchMethod where
  | semantic
  | keyword
  deriving DecidableEq, Repr

structure MemoryHit (Score : Type) where
  record : MemoryRecord
  score : Score
  method : SearchMethod
  deriving DecidableEq, Repr

/-- The hits of a search, best first, and how complete it was. -/
structure MemorySearch (Score : Type) where
  hits : List (MemoryHit Score)
  semanticFailed : Bool
  unindexed : Nat
  deriving DecidableEq, Repr

/-- What the database computes: the notes of the full-text index that match an expression, best rank
first, and the nearest rows of the vector table, nearest first. -/
structure SearchEngine (V Score : Type) where
  isAlphanumeric : Char → Bool
  matching : String → List MemoryRecord → List (MemoryRecord × Score)
  nearest : V → Nat → List (Nat × V) → List (Nat × Score)

/-- A query returns each row of its table at most once, and the vector table returns no more rows
than were asked for. -/
structure SearchEngine.Lawful {V Score : Type} (engine : SearchEngine V Score) : Prop where
  matching : ∀ expression memories,
    ((engine.matching expression memories).map Prod.fst).Subperm memories
  nearest : ∀ query count rows, ((engine.nearest query count rows).map Prod.fst).Subperm
    (rows.map Prod.fst)
  few : ∀ query count rows, (engine.nearest query count rows).length ≤ count

/-- Turns free text into a full-text expression: each word in quotes, of which any may match. There
is none without words. -/
def ftsQuery (isAlphanumeric : Char → Bool) (query : String) : Option String :=
  let terms :=
    ((query.toList.splitOnP fun char => !isAlphanumeric char).filter fun word => !word.isEmpty).map
    fun word => "\"" ++ String.ofList word ++ "\""
  if terms.isEmpty then none else some (String.intercalate " OR " terms)

namespace VectorStore
variable {V Score : Type} (engine : SearchEngine V Score) (store : VectorStore V)

/-- How many notes have no vector. -/
def unembeddedCount : Nat :=
  (store.memories.filter fun record => !store.isEmbedded record.id).length

/-- The notes that best match the words of the query, on request only those without a vector. -/
def keyword (query : String) (k : Nat) (onlyUnembedded : Bool) : List (MemoryHit Score) :=
  match ftsQuery engine.isAlphanumeric query with
  | none => []
  | some expression =>
      if k = 0 then []
      else
        (((engine.matching expression store.memories).filter fun found =>
          !(onlyUnembedded && store.vectors.isSome && store.isEmbedded found.1.id)).take k).map
            fun found => ⟨found.1, found.2, .keyword⟩

def searchKeyword (query : String) (k : Nat) : List (MemoryHit Score) :=
  store.keyword engine query k false

def searchKeywordUnembedded (query : String) (k : Nat) : List (MemoryHit Score) :=
  store.keyword engine query k true

/-- The notes whose vectors are nearest to the query. A vector whose note is gone finds nothing. -/
def searchSemantic (query : V) (k : Nat) : List (MemoryHit Score) :=
  match store.vectors with
  | none => []
  | some rows =>
      if k = 0 then []
      else
        (engine.nearest query k rows).filterMap fun found =>
          (store.memories.find? fun record => record.id = found.1).map fun record =>
            ⟨record, found.2, .semantic⟩

end VectorStore

/-- How far the queries of a search have come. -/
inductive SearchProgress (Score : Type) where
  | counting
  | keywords (unindexed : Nat)
  | vectors (unindexed : Nat) (hits : List (MemoryHit Score))

/-- A search that returned, with its bound and the store as its last query saw it. -/
structure Returned (V Score : Type) where
  k : Nat
  found : MemorySearch Score
  store : VectorStore V

/-- A memory with the queries of its searches. -/
structure SearchedMemory (V Score : Type) where
  memory : LongTermMemory V
  progress : Nat → SearchProgress Score
  returned : List (Returned V Score)

namespace SearchedMemory
variable {V Score : Type}

section Steps
variable (engine : SearchEngine V Score) (embedder : Option (Embedder V))

/-- A search returns to its caller. -/
def answer (w : SearchedMemory V Score) (number k : Nat) (found : MemorySearch Score) :
    SearchedMemory V Score :=
  { memory := w.memory.finish number (.ok .searched)
    progress := Function.update w.progress number .counting
    returned := w.returned ++ [⟨k, found, w.memory.store⟩] }

/-- A search takes the next of its queries, with the vector of its
text if that could be embedded. -/
def advanceSearch (w : SearchedMemory V Score) (number : Nat) (query : String) (k : Nat)
    (vector : Option V) :
    SearchedMemory V Score :=
  match vector with
  | none =>
      w.answer number k
        { hits := w.memory.store.searchKeyword engine query k, semanticFailed := embedder.isSome,
          unindexed := 0 }
  | some vector =>
      match w.progress number with
      | .counting =>
          let unindexed := w.memory.store.unembeddedCount
          { w with
            progress :=
              Function.update w.progress number (if unindexed > 0 then .keywords unindexed
                  else .vectors 0 []) }
      | .keywords unindexed =>
          { w with
            progress := Function.update w.progress number
              (.vectors unindexed (w.memory.store.searchKeywordUnembedded engine query k)) }
      | .vectors unindexed hits =>
          w.answer number k
            { hits := (hits ++ w.memory.store.searchSemantic engine vector k).take k,
              semanticFailed := false, unindexed }

def searchStep (w : SearchedMemory V Score) (action : MemoryAction) :
    Option (SearchedMemory V Score) :=
  match action with
  | .start number (.search query k) =>
      (LongTermMemory.memoryStep embedder w.memory action).map fun memory =>
        if LongTermMemory.isEmptySearch (.search query k) then
          { w with memory, returned := w.returned ++ [⟨k, ⟨[], false, 0⟩, w.memory.store⟩] }
        else { w with memory, progress := Function.update w.progress number .counting }
  | .advance number _ true =>
      match w.memory.calls number with
      | some ⟨.search query k, .storing vector⟩ =>
          some (w.advanceSearch engine embedder number query k vector)
      | _ => (LongTermMemory.memoryStep embedder w.memory action).map fun memory =>
          { w with memory }
  | _ => (LongTermMemory.memoryStep embedder w.memory action).map fun memory => { w with memory }

/-- The memory is opened on a database in which both tables keep their primary keys. -/
def searchMachine : Machine (SearchedMemory V Score) MemoryAction where
  start w := (LongTermMemory.memoryMachine embedder).start w.memory ∧
    (w.memory.store.memories.map MemoryRecord.id).Nodup ∧
      ((w.memory.store.vectors.getD []).map Prod.fst).Nodup ∧
        (∀ number, w.progress number = .counting) ∧ w.returned = []
  step := searchStep engine embedder

end Steps

end SearchedMemory

end Openheim.Rag
