import Mathlib.Data.List.Basic
import Mathlib.Logic.Function.Basic
import Openheim.Library.Lines
import Openheim.Library.Machine
import Openheim.Rag.Store

/-
This file follows `src/rag/mod.rs`: the steps of the calls on one long-term memory. Between two
steps of a call, other calls on the same memory take theirs.
-/

namespace Openheim.Rag

/-- The embeddings provider gives each text one vector. -/
structure Embedder (V : Type) where
  model : String
  embed : String → V
  size : V → Nat

/-- What the provider does with one request: it answers, it fails for
now, or it refuses the texts. -/
inductive Answer where
  | vectors
  | transient
  | refused
  deriving DecidableEq, Repr

def maxBatch : Nat := 64

/-- The most notes that one call back-fills. -/
def maxBackfill : Nat := 4 * maxBatch

inductive Request where
  | remember (content : String)
  | edit (id : Nat) (content : String)
  | forget (id : Nat)
  | search (query : String) (topK : Nat)
  deriving DecidableEq, Repr

/-- The text that a request embeds; forgetting embeds nothing. -/
def Request.text : Request → Option String
  | .remember content => some content
  | .edit _ content => some content
  | .forget _ => none
  | .search query _ => some query

/-- How far a call has come. It keeps the vector of its own text while it back-fills other notes. -/
inductive Stage (V : Type) where
  | embedding
  | ensuring (vector : V)
  | snapshot (vector : V)
  | reading (vector : V) (rejected : List Nat)
  | batches (vector : V) (pending : List MemoryRecord)
  | singles (vector : V) (todo : List MemoryRecord) (done : List (MemoryRecord × V))
      (rest : List MemoryRecord)
  | saving (vector : V) (queue : List (MemoryRecord × V)) (failed : Bool) (rest : List MemoryRecord)
  | storing (vector : Option V)

structure Call (V : Type) where
  request : Request
  stage : Stage V

/-- What a finished call returns; the hits of a search are not part of the state. -/
inductive Outcome where
  | remembered (record : MemoryRecord)
  | edited (record : Option MemoryRecord)
  | forgot (existed : Bool)
  | searched
  deriving DecidableEq, Repr

structure LongTermMemory (V : Type) where
  store : VectorStore V
  rejected : List Nat
  calls : Nat → Option (Call V)
  outcome : Option (Except Error Outcome)
  now : Instant

inductive MemoryAction where
  | start (call : Nat) (request : Request)
  | advance (call : Nat) (answer : Answer) (dbOk : Bool)
  | abandon (call : Nat)
  | tick
  deriving DecidableEq, Repr

namespace LongTermMemory
variable {V : Type}

def setStage (s : LongTermMemory V) (number : Nat) (request : Request) (stage : Stage V) :
    LongTermMemory V :=
  { s with calls := Function.update s.calls number (some ⟨request, stage⟩) }

/-- A call returns to its caller. -/
def finish (s : LongTermMemory V) (number : Nat) (outcome : Except Error Outcome) :
    LongTermMemory V :=
  { s with calls := Function.update s.calls number none, outcome := some outcome }

/-- A query that has no words to find is answered at once. -/
def isEmptySearch : Request → Bool
  | .search query topK => topK = 0 || Lines.isBlank query.toList
  | _ => false

/-- An edit gives its note another chance with the provider. -/
def unreject (rejected : List Nat) : Request → List Nat
  | .edit id _ => rejected.filter fun other => other ≠ id
  | _ => rejected

/-- The error of a database that cannot be written. -/
def databaseBusy : Error := .databaseError "database is locked"

section Steps
variable (embedder : Option (Embedder V))

/-- A call embeds its text first if it has one and there is an embedder. -/
def startCall (s : LongTermMemory V) (number : Nat) (request : Request) : LongTermMemory V :=
  if isEmptySearch request then { s with outcome := some (.ok .searched) }
  else
    { s with rejected := unreject s.rejected request }.setStage number request
      (if request.text.isSome ∧ embedder.isSome then .embedding else .storing none)

/-- The transaction for which a call was made. -/
def storeRequest (size : V → Nat) (s : LongTermMemory V) (vector : Option V) :
    Request → Except Error (Outcome × VectorStore V)
  | .remember content =>
      (s.store.insert size s.now content vector).map fun result => (.remembered result.1, result.2)
  | .edit id content => (s.store.update size id content vector).map fun result =>
      (.edited result.1, result.2)
  | .forget id => .ok (.forgot (s.store.delete id).1, (s.store.delete id).2)
  | .search _ _ => .ok (.searched, s.store)

/-- The notes that a back-fill tries: the oldest that have no vector and were not refused. -/
def pendingNotes (store : VectorStore V) (rejected : List Nat) : List MemoryRecord :=
  ((store.unembeddedUpTo (maxBackfill + rejected.length)).filter fun record =>
    record.id ∉ rejected).take maxBackfill

/-- A call that has an embedder takes its next step. -/
def advanceWith (embedder : Embedder V) (s : LongTermMemory V) (number : Nat) (call : Call V)
    (answer : Answer) (dbOk : Bool) : LongTermMemory V :=
  match call.stage with
  | .embedding =>
      match call.request.text, answer with
      | some text, .vectors => s.setStage number call.request (.ensuring (embedder.embed text))
      | _, _ => s.setStage number call.request (.storing none)
  | .ensuring vector =>
      match dbOk, s.store.ensureEmbeddingSpace embedder.model (embedder.size vector) with
      | true, .ok (_, store) => { s with store }.setStage number call.request (.snapshot vector)
      | _, _ => s.setStage number call.request (.storing none)
  | .snapshot vector => s.setStage number call.request (.reading vector s.rejected)
  | .reading vector rejected =>
      if dbOk then s.setStage number call.request (.batches vector (pendingNotes s.store rejected))
      else s.setStage number call.request (.storing (some vector))
  | .batches vector pending =>
      let batch := pending.take maxBatch
      let rest := pending.drop maxBatch
      if pending.isEmpty then s.setStage number call.request (.storing (some vector))
      else match answer with
        | .vectors =>
            s.setStage number call.request (.saving vector
              (batch.map fun record => (record, embedder.embed record.content)) false rest)
        | .transient => s.setStage number call.request (.storing (some vector))
        | .refused => s.setStage number call.request (.singles vector batch [] rest)
  | .singles vector [] done rest => s.setStage number call.request (.saving vector done false rest)
  | .singles vector (record :: todo) done rest =>
      match answer with
      | .vectors =>
          s.setStage number call.request
            (.singles vector todo (done ++ [(record, embedder.embed record.content)]) rest)
      | .transient => s.setStage number call.request (.saving vector done true rest)
      | .refused =>
          { s with rejected := s.rejected.insert record.id }.setStage number call.request
            (.singles vector todo done rest)
  | .saving vector [] failed rest =>
      s.setStage number call.request (if failed then .storing (some vector)
        else .batches vector rest)
  | .saving vector ((record, saved) :: queue) failed rest =>
      match dbOk, s.store.setEmbedding embedder.size record.id saved with
      | true, .ok store => { s with store }.setStage number call.request
          (.saving vector queue failed rest)
      | _, _ => s.setStage number call.request (.storing (some vector))
  | .storing vector =>
      match dbOk, storeRequest embedder.size s vector call.request with
      | true, .ok (outcome, store) => { s with store }.finish number (.ok outcome)
      | true, .error reason => s.finish number (.error reason)
      | false, _ => s.finish number (.error databaseBusy)

/-- Without an embedder a call has its transaction only. -/
def advanceWithout (s : LongTermMemory V) (number : Nat) (call : Call V) (dbOk : Bool) :
    LongTermMemory V :=
  match dbOk, storeRequest (fun _ => 0) s none call.request with
  | true, .ok (outcome, store) => { s with store }.finish number (.ok outcome)
  | true, .error reason => s.finish number (.error reason)
  | false, _ => s.finish number (.error databaseBusy)

def memoryStep (s : LongTermMemory V) : MemoryAction → Option (LongTermMemory V)
  | .start number request => if (s.calls number).isSome then none
      else some (startCall embedder s number request)
  | .advance number answer dbOk =>
      (s.calls number).map fun call =>
        match embedder with
        | some embedder => advanceWith embedder s number call answer dbOk
        | none => advanceWithout s number call dbOk
  | .abandon number =>
      if (s.calls number).isSome then some { s with calls := Function.update s.calls number none }
      else none
  | .tick => some { s with now := s.now + 1 }

/-- A memory is opened on a file whose vectors are current, such as an empty one. -/
def memoryMachine : Machine (LongTermMemory V) MemoryAction where
  start s := (∀ given ∈ embedder, s.store.Current given.embed) ∧ ∀ number, s.calls number = none
  step := memoryStep embedder

end Steps

end LongTermMemory

end Openheim.Rag
