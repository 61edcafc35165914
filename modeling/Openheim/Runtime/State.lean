import Mathlib.Logic.Function.Basic
import Openheim.Core.Uuid
import Openheim.Library.Machine
import Openheim.Runtime.Session

/-
This file follows `src/core/runtime/state.rs`: the steps that the calls of one runtime take. A step
is what a call does while it holds the write lock of the sessions, or between two waits of a turn.
-/

namespace Openheim.Runtime

/-- How far a turn has come: it holds its prompt lock, then the write lease as
well, then it runs the agent. -/
inductive TurnStage where
  | locked
  | leased
  | running
  deriving DecidableEq, Repr

/-- What a turn took from its session when it started. -/
structure Turn where
  sessionId : String
  uuid : Uuid
  chatId : Uuid
  llm : LlmClient
  config : AgentConfig
  mode : AgentMode
  cancel : Nat
  promptLock : Nat
  stage : TurnStage
  deriving DecidableEq, Repr

/-- Who the lockfile of a conversation names. -/
inductive LeaseHolder where
  | nobody
  | thisProcess
  | otherProcess
  deriving DecidableEq, Repr

/-- What is left to do for the call that holds the write lock over several steps. -/
inductive OpeningStage where
  | idleSweep
  | excessSweep
  | result
  deriving DecidableEq, Repr

/-- A call of `new_session` or `load_session` after its session is in the map. -/
structure Opening where
  sessionId : String
  loads : Bool
  stage : OpeningStage
  deriving DecidableEq, Repr

/-- What an opening call returns; a new session returns its id only. -/
inductive Opened where
  | created (sessionId : String)
  | loaded (sessionId : String) (mode : AgentMode) (provider model : String)
  deriving DecidableEq, Repr

structure AgentState where
  sessions : Sessions
  opening : Option Opening
  opened : Option (Except Error Opened)
  locked : Nat → Bool
  nextLock : Nat
  cancelled : Nat → Bool
  nextToken : Nat
  turns : Nat → Option Turn
  saved : Uuid → Bool
  leases : Uuid → LeaseHolder
  now : Instant

inductive Action where
  | newSession (chatId : Uuid) (config : AgentConfig)
  | loadSession (sessionId : String) (config : AgentConfig)
  | continueOpening
  | prompt (number : Nat) (sessionId : String)
  | acquireLease (number : Nat) (ioOk : Bool)
  | prepare (number : Nat) (resolved built : Bool)
  | finish (number : Nat)
  | cancelSession (sessionId : String)
  | applySessionConfig (sessionId : String) (config : AgentConfig)
  | setSessionMode (sessionId : String) (mode : AgentMode)
  | rehash (entries : List (Sigma fun _ : String => SessionState))
  | otherProcess (chatId : Uuid) (holds : Bool)
  | tick

namespace AgentState

/-- The session gets a lock and a token that no other session has. -/
def freshSession (s : AgentState) (chatId : Uuid) (config : AgentConfig) (llm : Option LlmClient) :
    SessionState :=
  ⟨chatId, config, llm, s.nextToken, .code, s.nextLock, s.now⟩

/-- The map gains or replaces one entry. -/
def insertSession (s : AgentState) (sessionId : String) (state : SessionState) : AgentState :=
  { s with sessions := s.sessions.insert sessionId state }

/-- A session that gets a new lock and token uses up their numbers. -/
def insertFresh (s : AgentState) (sessionId : String) (chatId : Uuid) (config : AgentConfig)
    (llm : Option LlmClient) : AgentState :=
  { s.insertSession sessionId (s.freshSession chatId config llm) with
    nextLock := s.nextLock + 1, nextToken := s.nextToken + 1 }

/-- A live session is kept, and only its time of last use changes. -/
def insertOrKeepLive (s : AgentState) (sessionId : String) (chatId : Uuid) (config : AgentConfig)
    (llm : Option LlmClient) : AgentState :=
  match s.sessions.lookup sessionId with
  | some live => s.insertSession sessionId { live with lastActive := s.now }
  | none => s.insertFresh sessionId chatId config llm

/-- What `load_session` returns when its session is in the map and idle. -/
def loadResult (s : AgentState) (sessionId : String) : Except Error Opened :=
  match s.sessions.lookup sessionId with
  | none => .error (.notFound ("session not found: " ++ sessionId))
  | some live =>
      if promptInFlight s.locked live then .error (.sessionBusy sessionId)
      else .ok (.loaded sessionId live.mode live.config.providerName live.config.model)

/-- The turn ends: its lease is dropped first and its prompt lock last. -/
def endTurn (s : AgentState) (number : Nat) (turn : Turn) : AgentState :=
  { s with
    turns := Function.update s.turns number none
    locked := Function.update s.locked turn.promptLock false
    leases := if turn.stage ≠ .locked ∧ s.leases turn.uuid = .thisProcess then
        Function.update s.leases turn.uuid .nobody else s.leases }

/-- The turn goes on to its next stage. -/
def setStage (s : AgentState) (number : Nat) (turn : Turn) (stage : TurnStage) : AgentState :=
  { s with turns := Function.update s.turns number (some { turn with stage }) }

end AgentState

section Crate
variable (uuid : UuidCrate) (baseline : AgentConfig)

/-- A session on the default model has no client of its own. -/
def sessionLlm (config : AgentConfig) : Option LlmClient :=
  if sameModel config baseline then none else some ⟨config⟩

/-- The next step of the call that holds the write lock. -/
def continueOpening (s : AgentState) (opening : Opening) : AgentState :=
  match opening.stage with
  | .idleSweep =>
      { s with
        sessions := evictIdle s.locked s.sessions s.now sessionIdleEvictionAfter
        opening := some { opening with stage := .excessSweep } }
  | .excessSweep =>
      { s with
        sessions := evictExcess s.locked s.sessions maxLiveSessions
        opening := some { opening with stage := .result } }
  | .result =>
      { s with
        opening := none
        opened := some (if opening.loads then s.loadResult opening.sessionId
          else .ok (.created opening.sessionId)) }

/-- What `prompt` does under the write lock: the prompt lock is taken, and
the turn gets a fresh token. -/
def startTurn (s : AgentState) (number : Nat) (sessionId : String) (id : Uuid)
    (session : SessionState) :
    AgentState :=
  { s with
    sessions :=
      s.sessions.insert sessionId { session with cancel := s.nextToken, lastActive := s.now }
    nextToken := s.nextToken + 1
    locked := Function.update s.locked session.promptLock true
    turns := Function.update s.turns number (some
      { sessionId, uuid := id, chatId := session.chatId, llm := session.llm.getD ⟨baseline⟩,
        config := session.config, mode := session.mode, cancel := s.nextToken, promptLock :=
          session.promptLock, stage := .locked }) }

/-- What a call does to one live session under the write lock; an unknown session is an error. -/
def updateSession (s : AgentState) (sessionId : String) (change : SessionState → SessionState) :
    AgentState :=
  match s.sessions.lookup sessionId with
  | some session => s.insertSession sessionId { change session with lastActive := s.now }
  | none => s

/-- A step that a failed call takes leaves the state as it was. A turn finishes when it returns or
its caller gives it up. -/
def agentStep (s : AgentState) : Action → Option AgentState
  | .newSession chatId config =>
      -- A random id is one that no session and no saved conversation has.
      if s.opening.isSome ∨ s.saved chatId ∨ s.sessions.entries.any fun entry =>
        entry.2.chatId = chatId then none
      else
        let sessionId := uuid.toText chatId
        some { s.insertFresh sessionId chatId config (sessionLlm baseline config) with
          opening := some ⟨sessionId, false, .idleSweep⟩ }
  | .loadSession sessionId config =>
      if s.opening.isSome then none
      else match uuid.parseStr sessionId with
        | none => some s
        | some id =>
            if s.saved id then
              some { s.insertOrKeepLive sessionId id config (sessionLlm baseline config) with
                opening := some ⟨sessionId, true, .idleSweep⟩ }
            else some s
  | .continueOpening => s.opening.map (continueOpening s)
  | .prompt number sessionId =>
      if s.opening.isSome ∨ (s.turns number).isSome then none
      else match uuid.parseStr sessionId with
        | none => some s
        | some id =>
            match s.sessions.lookup sessionId with
            | none => some s
            | some session =>
                if promptInFlight s.locked session then some s
                else some (startTurn baseline s number sessionId id session)
  | .acquireLease number ioOk =>
      match s.turns number with
      | some turn =>
          if turn.stage = .locked then
            if ioOk ∧ s.leases turn.uuid ≠ .otherProcess then
              some ({ s with leases := Function.update s.leases turn.uuid .thisProcess }.setStage
                number turn .leased)
            else some (s.endTurn number turn)
          else none
      | none => none
  | .prepare number resolved built =>
      match s.turns number with
      | some turn =>
          if turn.stage = .leased then
            if resolved then
              let recorded := { s with saved := Function.update s.saved turn.chatId true }
              some (if built then recorded.setStage number turn .running
                else recorded.endTurn number turn)
            else some (s.endTurn number turn)
          else none
      | none => none
  | .finish number => (s.turns number).map (s.endTurn number)
  | .cancelSession sessionId =>
      if s.opening.isSome then none
      else match s.sessions.lookup sessionId with
        | some session =>
            some { updateSession s sessionId id with
              cancelled := Function.update s.cancelled session.cancel true }
        | none => some s
  | .applySessionConfig sessionId config =>
      if s.opening.isSome then none
      else some (updateSession s sessionId fun session =>
        { session with config, llm := sessionLlm baseline config })
  | .setSessionMode sessionId mode =>
      if s.opening.isSome then none
      else some (updateSession s sessionId fun session => { session with mode })
  | .rehash entries =>
      if same : entries.Perm s.sessions.entries then
        some { s with sessions := ⟨entries, (List.perm_nodupKeys same).mpr s.sessions.nodupKeys⟩ }
      else none
  | .otherProcess chatId holds =>
      if s.leases chatId = .thisProcess then none
      else some { s with leases := Function.update s.leases chatId (if holds then .otherProcess
        else .nobody) }
  | .tick => some { s with now := s.now + 1 }

/-- A runtime starts without sessions and turns; conversations may be saved from earlier runs. -/
def agentMachine : Machine AgentState Action where
  start s := s.sessions.entries = [] ∧ s.opening = none ∧ (∀ number, s.turns number = none) ∧
    (∀ lock, s.locked lock = false) ∧ (∀ token, s.cancelled token = false)
  step := agentStep uuid baseline

end Crate

end Openheim.Runtime
