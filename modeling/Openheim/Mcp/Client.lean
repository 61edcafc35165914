import Mathlib.Logic.Function.Basic
import Openheim.Core.Error
import Openheim.Library.Machine

/-
This file follows `McpClient` of `src/mcp/client.rs`: the calls of one client, which share a
connection behind a lock, with the reconnect that one of them makes when the connection is closed.
-/

namespace Openheim.Mcp

/-- After a failed reconnect, calls fail for thirty seconds without another one. -/
def reconnectBackoff : Nat := 30000000000

/-- A server has sixty seconds to come back. -/
def reconnectTimeout : Nat := 60000000000

/-- How far a call has come; it may take until its deadline. The lock is handed over in the order of
the callers, and an attempt to reconnect has a deadline of its own. -/
inductive CallStage where
  | fresh
  | waiting (deadline : Instant)
  | attempting (deadline limit : Instant)
  | ready (deadline : Instant) (service : Nat)
  | sent (deadline : Instant) (service : Nat)
  | returned
  deriving DecidableEq, Repr

/-- What happened. An attempt starts and ends with a new connection, with an error, or with its
caller; and a caller that gets the lock uses the connection, fails at once, or starts an attempt. -/
inductive McpEvent where
  | started (time : Instant) (call : Nat)
  | connected (call service : Nat)
  | failed (time : Instant) (call : Nat) (why : String)
  | abandoned (time : Instant) (call : Nat)
  | lost (service : Nat)
  | uses (call service : Nat)
  | failedAtOnce (time : Instant) (call : Nat) (why : String)
  | sent (call service : Nat)
  deriving DecidableEq, Repr

/-- A client with its calls. Connections are numbered, and the history
has the latest event first. -/
structure McpClient where
  now : Instant
  service : Nat
  closed : Bool
  failedReconnect : Option (Instant × String)
  holder : Option Nat
  queue : List Nat
  calls : Nat → CallStage
  history : List McpEvent

inductive McpAction where
  | callTool (number : Nat)
  | acquire
  | connect (number : Nat)
  | refuse (number : Nat) (reason : String)
  | overdue (number : Nat)
  | send (number : Nat)
  | answer (number : Nat)
  | expire (number : Nat)
  | cancel (number : Nat)
  | lose
  | tick (elapsed : Nat)
  deriving DecidableEq, Repr

namespace McpClient

def setStage (s : McpClient) (number : Nat) (stage : CallStage) : McpClient :=
  { s with calls := Function.update s.calls number stage }

def record (s : McpClient) (event : McpEvent) : McpClient :=
  { s with history := event :: s.history }

def startReconnect (s : McpClient) (number : Nat) (deadline : Instant) : McpClient :=
  ({ s with holder := some number }.setStage number
    (.attempting deadline (s.now + reconnectTimeout))).record
    (.started s.now number)

/-- A caller that got the lock uses the connection if it is open, fails within the back-off, or
tries to reconnect. -/
def liveService (s : McpClient) (number : Nat) (deadline : Instant) : McpClient :=
  if !s.closed then (s.setStage number (.ready deadline s.service)).record (.uses number s.service)
  else
    match s.failedReconnect with
    | some (time, why) =>
        if s.now - time < reconnectBackoff then
          (s.setStage number .returned).record (.failedAtOnce s.now number why)
        else s.startReconnect number deadline
    | none => s.startReconnect number deadline

section Steps
variable (serverName : String) (toolTimeout : Nat)

/-- The attempt made a connection, which its caller uses. -/
def reconnected (s : McpClient) (number : Nat) (deadline : Instant) : McpClient :=
  (({ s with
    service := s.service + 1, closed := false, failedReconnect := none,
    holder := none }.setStage number
    (.ready deadline (s.service + 1))).record (.connected number (s.service + 1))).record
      (.uses number (s.service + 1))

def closedAndFailed (reason : String) : String :=
  "MCP server '" ++ serverName ++ "' closed its connection and reconnecting failed: " ++ reason

/-- The attempt failed, which is remembered. -/
def reconnectFailed (s : McpClient) (number : Nat) (reason : String) : McpClient :=
  ({ s with
    failedReconnect := some (s.now, closedAndFailed serverName reason),
    holder := none }.setStage number
    .returned).record (.failed s.now number (closedAndFailed serverName reason))

def didNotComeBack : String := "Tool execution error: did not come back within 60s"

/-- A call ends at its timeout, or is dropped by its caller. With it goes its place
in the queue or its attempt. -/
def leave (s : McpClient) (number : Nat) : McpClient :=
  match s.calls number with
  | .attempting _ _ => ({ s with holder := none }.setStage number .returned).record
      (.abandoned s.now number)
  | _ => { s with queue := s.queue.filter fun other => other ≠ number }.setStage number .returned

/-- The deadline of a call that is under way. -/
def deadline (s : McpClient) (number : Nat) : Option Instant :=
  match s.calls number with
  | .fresh | .returned => none
  | .waiting deadline | .attempting deadline _ | .ready deadline _
  | .sent deadline _ => some deadline

def step (s : McpClient) : McpAction → Option McpClient
  | .callTool number =>
      if s.calls number = .fresh then
        some ({ s with queue := s.queue ++ [number] }.setStage number
          (.waiting (s.now + toolTimeout)))
      else none
  | .acquire =>
      match s.holder, s.queue with
      | none, number :: rest =>
          match s.calls number with
          | .waiting deadline => some ({ s with queue := rest }.liveService number deadline)
          | _ => none
      | _, _ => none
  | .connect number =>
      match s.calls number with
      | .attempting deadline _ => some (s.reconnected number deadline)
      | _ => none
  | .refuse number reason =>
      match s.calls number with
      | .attempting _ _ => some (s.reconnectFailed serverName number reason)
      | _ => none
  | .overdue number =>
      match s.calls number with
      | .attempting _ limit =>
          if limit ≤ s.now then some (s.reconnectFailed serverName number didNotComeBack) else none
      | _ => none
  | .send number =>
      match s.calls number with
      | .ready deadline service =>
          some ((s.setStage number (.sent deadline service)).record (.sent number service))
      | _ => none
  | .answer number =>
      match s.calls number with
      | .sent _ _ => some (s.setStage number .returned)
      | _ => none
  | .expire number => if ∃ deadline ∈ s.deadline number, deadline ≤ s.now then
      some (s.leave number) else none
  | .cancel number => if (s.deadline number).isSome then some (s.leave number) else none
  | .lose => if s.closed then none else some ({ s with closed := true }.record (.lost s.service))
  | .tick elapsed => some { s with now := s.now + elapsed }

/-- The client starts with an open connection. -/
def machine : Machine McpClient McpAction where
  start s := s.service = 0 ∧ s.closed = false ∧ s.failedReconnect = none ∧ s.holder = none ∧
    s.queue = [] ∧ (∀ number, s.calls number = .fresh) ∧ s.history = []
  step := step serverName toolTimeout

end Steps

end McpClient

end Openheim.Mcp
