import Openheim.Rag.Embedding

/-
This file follows `try_backfill` of `src/rag/mod.rs` with every request to the provider, when no
other call takes a step.
-/

namespace Openheim.Rag

/-- What a back-fill works on: the store, the refused notes, and the requests so far. -/
structure Backfill (V : Type) where
  store : VectorStore V
  rejected : List Nat
  asked : List (Asked V)

namespace Backfill
variable {V : Type}

section Run
variable (timeoutOrConnect : String → Bool) (client : EmbeddingClient V) (size : V → Nat)

/-- Saves the vectors one after the other, until one cannot be saved. -/
def saveVectors (store : VectorStore V) : List (Nat × V) → Except Error Unit × VectorStore V
  | [] => (.ok (), store)
  | (id, vector) :: rest =>
      match store.setEmbedding size id vector with
      | .ok store => saveVectors store rest
      | .error error => (.error error, store)

/-- Embeds the notes one at a time: the vectors that worked, and an error if a transient failure
stopped it early. A note that the provider refuses is noted. -/
def embedOneByOne :
    List MemoryRecord → Backfill V → (List (Nat × V) × Except Error Unit) × Backfill V
  | [], s => (([], .ok ()), s)
  | record :: rest, s =>
      match client.embedBatched timeoutOrConnect [record.content] s.asked with
      | (.ok one, asked) =>
          let ((vectors, outcome), s) := embedOneByOne rest { s with asked }
          (((one.getLast?.map fun vector => (record.id, vector)).toList ++ vectors, outcome), s)
      | (.error error, asked) =>
          if error.isRetryable timeoutOrConnect then (([], .error error), { s with asked })
          else embedOneByOne rest { s with asked, rejected := s.rejected.insert record.id }

/-- Embeds a batch and saves its vectors. A batch that the provider refuses is
embedded one note at a time. -/
def embedBatch (batch : List MemoryRecord) (s : Backfill V) : Except Error Unit × Backfill V :=
  match client.embedBatched timeoutOrConnect (batch.map MemoryRecord.content) s.asked with
  | (.ok vectors, asked) =>
      let (outcome, store) := saveVectors size s.store ((batch.map MemoryRecord.id).zip vectors)
      (outcome, { s with store, asked })
  | (.error error, asked) =>
      if error.isRetryable timeoutOrConnect then (.error error, { s with asked })
      else
        let ((vectors, outcome), s) := embedOneByOne timeoutOrConnect client batch { s with asked }
        match saveVectors size s.store vectors with
        | (.ok (), store) => (outcome, { s with store })
        | (.error error, store) => (.error error, { s with store })

/-- One batch after the other, until one is stopped. -/
def embedPending : List (List MemoryRecord) → Backfill V → Except Error Unit × Backfill V
  | [], s => (.ok (), s)
  | batch :: rest, s =>
      match embedBatch timeoutOrConnect client size batch s with
      | (.ok (), s) => embedPending rest s
      | (.error error, s) => (.error error, s)

/-- Embeds the pending notes a batch at a time, saving each batch as it succeeds. -/
def tryBackfill (s : Backfill V) : Except Error Unit × Backfill V :=
  embedPending timeoutOrConnect client size
    (Batches.batches maxBatch (LongTermMemory.pendingNotes s.store s.rejected)) s

end Run

end Backfill

end Openheim.Rag
