import Openheim.Library.Batches
import Openheim.Rag.Memory

/-
This file follows `src/rag/embedding/mod.rs`: requests to the embeddings provider with their
retries, and the embedding of texts in batches.
-/

namespace Openheim.Rag

/-- A provider answers each request as it likes. The first argument counts the requests before. -/
structure EmbeddingClient (V : Type) where
  model : String
  embed : Nat → List String → Except Error (List V)

/-- A request to the provider with its answer. -/
structure Asked (V : Type) where
  inputs : List String
  answer : Except Error (List V)

namespace EmbeddingClient
variable {V : Type}

/-- How often one request is repeated after a transient failure. -/
def maxRetries : Nat := 2

/-- An answer with another number of vectors than of inputs. -/
def wrongCount (vectors inputs : Nat) : Error :=
  .apiError ("embeddings provider returned " ++ toString vectors ++ " vectors for " ++
    toString inputs ++ " inputs")

section Requests
variable (timeoutOrConnect : String → Bool) (client : EmbeddingClient V)

/-- The provider failed, and may not fail again. -/
def transient : Except Error (List V) → Bool
  | .error error => error.isRetryable timeoutOrConnect
  | .ok _ => false

/-- One request, which is repeated on a transient failure as long as there are retries left. The
requests so far are recorded beside the result. -/
def embedWithRetry (inputs : List String) :
    Nat → List (Asked V) → Except Error (List V) × List (Asked V)
  | 0, asked =>
      (client.embed asked.length inputs, asked ++ [⟨inputs, client.embed asked.length inputs⟩])
  | retries + 1, asked =>
      let answer := client.embed asked.length inputs
      if transient timeoutOrConnect answer then
        embedWithRetry inputs retries (asked ++ [⟨inputs, answer⟩])
      else (answer, asked ++ [⟨inputs, answer⟩])

/-- Embeds one batch after the other, and checks that there is one vector for each text. -/
def embedBatches : List (List String) → List (Asked V) → Except Error (List V) × List (Asked V)
  | [], asked => (.ok [], asked)
  | batch :: rest, asked =>
      match embedWithRetry timeoutOrConnect client batch maxRetries asked with
      | (.error error, asked) => (.error error, asked)
      | (.ok vectors, asked) =>
          if vectors.length ≠ batch.length then
            (.error (wrongCount vectors.length batch.length), asked)
          else
            match embedBatches rest asked with
            | (.ok others, asked) => (.ok (vectors ++ others), asked)
            | (.error error, asked) => (.error error, asked)

/-- Embeds the texts in batches, in their order. -/
def embedBatched (inputs : List String) (asked : List (Asked V)) :
    Except Error (List V) × List (Asked V) :=
  embedBatches timeoutOrConnect client (Batches.batches maxBatch inputs) asked

end Requests

/-- The provider refused the inputs: it failed for good, or its answer cannot be used. -/
def Refused (timeoutOrConnect : String → Bool) (request : Asked V) : Prop :=
  match request.answer with
  | .error error => error.isRetryable timeoutOrConnect = false
  | .ok vectors => vectors.length ≠ request.inputs.length

/-- An answer with one vector for each input has the vectors of the inputs in their order. -/
def Embeds (client : EmbeddingClient V) (embed : String → V) : Prop :=
  ∀ count inputs vectors, client.embed count inputs = .ok vectors → vectors.length = inputs.length →
    vectors = inputs.map embed

section Results
variable {timeoutOrConnect : String → Bool} {client : EmbeddingClient V}

/-- A request is repeated with the same inputs, and its result is the last answer. -/
theorem embedWithRetry_eq (inputs : List String) (retries : Nat) (asked : List (Asked V)) :
    ∃ tries answer count, (∀ request ∈ tries, request.inputs = inputs) ∧
      client.embed count inputs = answer ∧
      embedWithRetry timeoutOrConnect client inputs retries asked =
        (answer, asked ++ (tries ++ [⟨inputs, answer⟩])) := by
  induction retries generalizing asked with
  | zero => exact ⟨[], _, _, nofun, rfl, rfl⟩
  | succ retries ih =>
      rw [embedWithRetry]
      split
      · obtain ⟨tries, answer, count, same, answered, result⟩ :=
          ih (asked ++ [⟨inputs, client.embed asked.length inputs⟩])
        refine ⟨⟨inputs, client.embed asked.length inputs⟩ :: tries, answer, count, ?_,
          answered, ?_⟩
        · exact List.forall_mem_cons.mpr ⟨rfl, same⟩
        · rw [result, List.append_assoc, List.singleton_append, List.cons_append]
      · exact ⟨[], _, _, nofun, rfl, rfl⟩

/-- Texts that fit into one batch are embedded, refused, or left by a transient failure. -/
theorem embedBatched_cases {embed : String → V} (embeds : client.Embeds embed)
    {inputs : List String}
    (present : inputs ≠ []) (fits : inputs.length ≤ maxBatch) (asked : List (Asked V)) :
    ∃ tries last result, (∀ request ∈ tries, request.inputs = inputs) ∧ last.inputs = inputs ∧
      embedBatched timeoutOrConnect client inputs asked = (result, asked ++ (tries ++ [last])) ∧
      (result = .ok (inputs.map embed) ∨
        ∃ error, result = .error error ∧
          (error.isRetryable timeoutOrConnect = true ∧ last.answer = .error error ∨
            error.isRetryable timeoutOrConnect = false ∧ Refused timeoutOrConnect last)) := by
  obtain ⟨tries, answer, count, same, answered, requested⟩ :=
    @embedWithRetry_eq _ timeoutOrConnect client inputs maxRetries asked
  rw [embedBatched, Batches.batches_of_length_le present fits, embedBatches, requested]
  cases answer with
  | error error =>
      refine ⟨tries, ⟨inputs, .error error⟩, _, same, rfl, rfl, .inr ⟨error, rfl, ?_⟩⟩
      cases retryable : error.isRetryable timeoutOrConnect with
      | true => exact .inl ⟨rfl, rfl⟩
      | false => exact .inr ⟨rfl, retryable⟩
  | ok vectors =>
      by_cases count : vectors.length = inputs.length
      · have embedded := embeds _ _ _ answered count
        refine ⟨tries, ⟨inputs, .ok vectors⟩, .ok vectors, same, rfl, ?_, .inl (by rw [embedded])⟩
        dsimp only
        rw [if_neg (not_not.mpr count), embedBatches]
        simp only [List.append_nil]
      · refine ⟨tries, ⟨inputs, .ok vectors⟩, .error (wrongCount vectors.length inputs.length),
          same, rfl, ?_, .inr ⟨_, rfl, .inr ⟨rfl, count⟩⟩⟩
        dsimp only
        rw [if_pos count]

end Results

end EmbeddingClient

end Openheim.Rag
