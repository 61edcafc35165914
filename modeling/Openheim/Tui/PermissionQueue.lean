import Openheim.Core.Permission
import Openheim.Library.Machine

/-
This file follows `PermissionQueue` of `src/tui/state.rs` and the requests of
`src/tui/permission.rs`, whose waiting side lives on other tasks.
-/

namespace Openheim.Tui

/-- Options shown in the permission prompt, in their order. -/
def permissionOptions : List (String × PermissionDecision) :=
  [("Allow Once", .allowOnce), ("Allow Always", .allowAlways), ("Reject Once", .rejectOnce),
    ("Reject Always", .rejectAlways)]

/-- One pending approval. The channel for its answer is a number. -/
structure PendingPermission where
  toolName : String
  arguments : String
  subagent : Option String
  respondTo : Nat
  deriving DecidableEq, Repr

/-- How the transcript refers to the call once it is answered. -/
def PendingPermission.describe (request : PendingPermission) : String :=
  match request.subagent with
  | some subagent => "'" ++ request.toolName ++ "' from subagent '" ++ subagent ++ "'"
  | none => "'" ++ request.toolName ++ "'"

/-- Requests wait in a queue, and one of the options is highlighted for the front one. -/
structure PermissionQueue where
  pending : List PendingPermission
  selected : Nat
  deriving DecidableEq, Repr

namespace PermissionQueue

def push (queue : PermissionQueue) (request : PendingPermission) : PermissionQueue :=
  ⟨queue.pending ++ [request], if queue.pending.isEmpty then 0 else queue.selected⟩

def front (queue : PermissionQueue) : Option PendingPermission := queue.pending.head?

def selectPrevious (queue : PermissionQueue) : PermissionQueue :=
  { queue with selected := queue.selected - 1 }

def selectNext (queue : PermissionQueue) : PermissionQueue :=
  { queue with selected := min (queue.selected + 1) (permissionOptions.length - 1) }

/-- The decision of the highlighted option; an index without an option panics. -/
def selectedDecision (queue : PermissionQueue) : Option PermissionDecision :=
  permissionOptions[queue.selected]?.map Prod.snd

/-- The front request is taken out for its answer to be sent, and described. -/
def resolve (queue : PermissionQueue) : Option (PendingPermission × String × PermissionQueue) :=
  match queue.pending with
  | [] => none
  | request :: rest => some (request, request.describe, ⟨rest, 0⟩)

end PermissionQueue

/-- How far `prune_stale` has come: what its test of the front request gave, and which requests
`retain` has kept and not tested yet. -/
structure Pruning where
  frontIsStale : Bool
  retained : List PendingPermission
  untested : List PendingPermission
  deriving DecidableEq, Repr

/-- The queue, how many requests were pushed, the channels on which nobody waits any more, and the
decisions that were received. -/
structure QueueState where
  queue : PermissionQueue
  pruning : Option Pruning
  pushed : Nat
  closed : List Nat
  received : List (Nat × PermissionDecision)
  deriving DecidableEq, Repr

/-- What the user interface does to the queue, one liveness test at a time, and a
waiting side that goes away. -/
inductive QueueAction where
  | push (toolName arguments : String) (subagent : Option String)
  | selectPrevious
  | selectNext
  | resolve (decision : PermissionDecision)
  | beginPrune
  | testNext
  | endPrune
  | expire (channel : Nat)
  deriving DecidableEq, Repr

namespace QueueState

def isClosed (s : QueueState) (request : PendingPermission) : Bool := request.respondTo ∈ s.closed

/-- A decision is received unless nobody waits for it. -/
def send (s : QueueState) (request : PendingPermission) (decision : PermissionDecision) :
    QueueState :=
  if s.isClosed request then s
  else { s with received := s.received ++ [(request.respondTo, decision)] }

/-- What the user interface does with the queue outside `prune_stale`. -/
def act (s : QueueState) : QueueAction → Option QueueState
  | .push toolName arguments subagent =>
      some { s with
        queue := s.queue.push ⟨toolName, arguments, subagent, s.pushed⟩
        pushed := s.pushed + 1 }
  | .selectPrevious => some { s with queue := s.queue.selectPrevious }
  | .selectNext => some { s with queue := s.queue.selectNext }
  | .resolve decision =>
      match s.queue.resolve with
      | none => some s
      | some (request, _, queue) => some ({ s with queue }.send request decision)
  | .beginPrune =>
      some { s with pruning := some ⟨s.queue.front.any s.isClosed, [], s.queue.pending⟩ }
  | _ => none

/-- The user interface does one thing at a time, but a waiting side may go away at any moment. -/
def step (s : QueueState) : QueueAction → Option QueueState
  | .expire channel => some { s with closed := channel :: s.closed }
  | .testNext =>
      match s.pruning with
      | some ⟨frontIsStale, retained, request :: rest⟩ =>
          let retained := if s.isClosed request then retained else retained ++ [request]
          some { s with pruning := some ⟨frontIsStale, retained, rest⟩ }
      | _ => none
  | .endPrune =>
      match s.pruning with
      | some ⟨frontIsStale, retained, []⟩ =>
          some { s with
            queue := ⟨retained, if frontIsStale then 0 else s.queue.selected⟩
            pruning := none }
      | _ => none
  | action => if s.pruning.isNone then s.act action else none

end QueueState

/-- All runs of the queue, which begins empty. -/
def queueMachine : Machine QueueState QueueAction where
  start s := s = ⟨⟨[], 0⟩, none, 0, [], []⟩
  step := QueueState.step

end Openheim.Tui
