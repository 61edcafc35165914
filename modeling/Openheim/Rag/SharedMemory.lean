import Openheim.Rag.Memory

/-
This file follows two long-term memories that are opened on one database file. Each has its own
connection, so between two statements on one of them the other one can take its own.
-/

namespace Openheim.Rag

/-- A vector together with the name of the model that produced it, which
the database does not store. -/
structure Produced (W : Type) where
  model : String
  values : List W
  deriving DecidableEq, Repr

/-- An embedding model gives each text a list of numbers. -/
structure EmbeddingModel (W : Type) where
  name : String
  embed : String → List W

def EmbeddingModel.embedder {W : Type} (model : EmbeddingModel W) : Embedder (Produced W) :=
  ⟨model.name, fun text => ⟨model.name, model.embed text⟩, fun vector => vector.values.length⟩

inductive Side where
  | first
  | second
  deriving DecidableEq, Repr

/-- What a call does next on the connection that it holds: the rest of `ensure_embedding_space`, the
select of `unembedded`, or the transaction of an insert or update whose vector table was found. -/
inductive Statement where
  | readDimensions (model : Option String)
  | findTable
  | switch
  | select (hasTable : Bool)
  | write
  deriving DecidableEq, Repr

/-- One memory without the store that it shares. The connection is held by at most one call. -/
structure Handle (V : Type) where
  rejected : List Nat
  calls : Nat → Option (Call V)
  outcome : Option (Except Error Outcome)
  connection : Option (Nat × Statement)

structure SharedMemory (V : Type) where
  store : VectorStore V
  handles : Side → Handle V
  now : Instant

inductive SharedAction where
  | start (side : Side) (call : Nat) (request : Request)
  | advance (side : Side) (call : Nat) (answer : Answer) (dbOk : Bool)
  | abandon (side : Side) (call : Nat)
  | tick
  deriving DecidableEq, Repr

/-- The next step of a call reads or writes the database. -/
def Stage.usesConnection {V : Type} : Stage V → Bool
  | .ensuring _ | .reading _ _ | .saving _ (_ :: _) _ _ | .storing _ => true
  | _ => false

/-- A note is stored or rewritten together with its vector. -/
def Request.writesVector : Request → Bool
  | .remember _ | .edit _ _ => true
  | _ => false

namespace SharedMemory
variable {V : Type}

/-- The memory that the calls of one side see. -/
def view (s : SharedMemory V) (side : Side) : LongTermMemory V :=
  ⟨s.store, (s.handles side).rejected, (s.handles side).calls, (s.handles side).outcome, s.now⟩

/-- A step of one side changes the store and its own handle. -/
def put (s : SharedMemory V) (side : Side) (memory : LongTermMemory V)
    (connection : Option (Nat × Statement)) :
    SharedMemory V :=
  { s with
    store := memory.store
    handles :=
      Function.update s.handles side ⟨memory.rejected, memory.calls, memory.outcome, connection⟩ }

/-- A call keeps the connection for its next statement. -/
def hold (s : SharedMemory V) (side : Side) (number : Nat) (statement : Statement) :
    SharedMemory V :=
  s.put side (s.view side) (some (number, statement))

/-- A call goes on without the connection. -/
def release (s : SharedMemory V) (side : Side) (number : Nat) (request : Request)
    (stage : Stage V) : SharedMemory V :=
  s.put side ((s.view side).setStage number request stage) none

section Steps
variable (embedders : Side → Embedder V)

/-- The first statement of a call that uses the free connection; what has no
other statement is done at once. -/
def firstStatement (s : SharedMemory V) (side : Side) (number : Nat) (call : Call V)
    (answer : Answer) (dbOk : Bool) :
    SharedMemory V :=
  match call.stage with
  | .ensuring vector =>
      if dbOk ∧ (embedders side).size vector ≠ 0 then
        s.hold side number (.readDimensions s.store.model)
      else s.release side number call.request (.storing none)
  | .reading vector _ =>
      if dbOk then s.hold side number (.select s.store.vectors.isSome)
      else s.release side number call.request (.storing (some vector))
  | .storing (some _) =>
      -- Without a vector table the whole step is one failing read; a search writes nothing.
      if dbOk ∧ s.store.vectors.isSome ∧ call.request.writesVector then s.hold side number .write
      else s.put side (LongTermMemory.advanceWith (embedders side) (s.view side) number call
        answer dbOk) none
  | _ => s.put side (LongTermMemory.advanceWith (embedders side) (s.view side) number call
      answer dbOk) none

/-- The next statement of the call that holds the connection. -/
def nextStatement (s : SharedMemory V) (side : Side) (number : Nat) (call : Call V)
    (answer : Answer) (dbOk : Bool) (statement : Statement) : Option (SharedMemory V) :=
  match call.stage, statement with
  | .ensuring vector, .readDimensions model =>
      if dbOk then
        if model = some (embedders side).model ∧
          s.store.dimensions = some ((embedders side).size vector) then
          some (s.hold side number .findTable)
        else some (s.hold side number .switch)
      else some (s.release side number call.request (.storing none))
  | .ensuring vector, .findTable =>
      if dbOk then
        if s.store.vectors.isSome then some (s.release side number call.request (.snapshot vector))
        else some (s.hold side number .switch)
      else some (s.release side number call.request (.storing none))
  | .ensuring vector, .switch =>
      if dbOk then
        let switched : VectorStore V :=
          { s.store with
            vectors := some []
            model := some (embedders side).model
            dimensions := some ((embedders side).size vector) }
        some ({ s with store := switched }.release side number call.request (.snapshot vector))
      else some (s.release side number call.request (.storing none))
  | .reading vector rejected, .select hasTable =>
      if dbOk then
        let seen := { s.store with vectors := if hasTable then s.store.vectors else none }
        some (s.release side number call.request
          (.batches vector (LongTermMemory.pendingNotes seen rejected)))
      else some (s.release side number call.request (.storing (some vector)))
  | .storing _, .write =>
      some (s.put side (LongTermMemory.advanceWith (embedders side) (s.view side) number call answer
        dbOk) none)
  | _, _ => none

/-- A call that needs the connection waits while another call of its side holds it. -/
def sharedStep (s : SharedMemory V) : SharedAction → Option (SharedMemory V)
  | .start side number request =>
      if ((s.handles side).calls number).isSome then none
      else some (s.put side (LongTermMemory.startCall (some (embedders side)) (s.view side)
        number request)
        (s.handles side).connection)
  | .advance side number answer dbOk =>
      ((s.handles side).calls number).bind fun call =>
        match (s.handles side).connection with
        | none => some (firstStatement embedders s side number call answer dbOk)
        | some (owner, statement) =>
            if owner = number then nextStatement embedders s side number call answer dbOk statement
            else if call.stage.usesConnection then none
            else some (s.put side (LongTermMemory.advanceWith (embedders side) (s.view side) number
              call answer dbOk)
              (some (owner, statement)))
  | .abandon side number =>
      -- What was handed to the database runs to its end.
      if ((s.handles side).calls number).isSome ∧ ∀ held ∈ (s.handles side).connection,
        held.1 ≠ number then
        some (s.put side { s.view side with
          calls := Function.update (s.handles side).calls number none }
          (s.handles side).connection)
      else none
  | .tick => some { s with now := s.now + 1 }

end Steps

/-- Two memories are opened on one file. -/
def sharedMachine (embedders : Side → Embedder V) (opened : VectorStore V → Prop) :
    Machine (SharedMemory V) SharedAction where
  start s := opened s.store ∧ ∀ side, (∀ number, (s.handles side).calls number = none) ∧
    (s.handles side).connection = none
  step := sharedStep embedders

end SharedMemory

end Openheim.Rag
