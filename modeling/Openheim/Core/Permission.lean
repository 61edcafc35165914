import Openheim.Core.Json

/-
This file follows `src/core/permission.rs` and the approval scopes of `src/tools/mod.rs`.
-/

namespace Openheim

/-- The decision on a single tool call. -/
inductive PermissionDecision where
  | allowOnce
  | allowAlways
  | rejectOnce
  | rejectAlways
  deriving DecidableEq, Repr

namespace PermissionDecision

def isAllowed : PermissionDecision → Bool
  | .allowOnce | .allowAlways => true
  | .rejectOnce | .rejectAlways => false

/-- A sticky decision is remembered for the rest of the session. -/
def isSticky : PermissionDecision → Bool
  | .allowAlways | .rejectAlways => true
  | .allowOnce | .rejectOnce => false

end PermissionDecision

/-- The tool call that a gate is asked about. -/
structure PermissionRequest where
  toolCallId : String
  toolName : String
  arguments : String
  subagent : Option String
  deriving DecidableEq, Repr

namespace PermissionRequest

/-- A call of the session's own agent. -/
def new (toolCallId toolName arguments : String) : PermissionRequest :=
  ⟨toolCallId, toolName, arguments, none⟩

def fromSubagent (request : PermissionRequest) (name : String) : PermissionRequest :=
  { request with subagent := some name }

end PermissionRequest

/-- How the approvals of a tool are keyed. -/
inductive ApprovalScope where
  | toolName
  | exactArguments
  deriving DecidableEq, Repr

/-- The key under which a sticky decision is remembered. -/
def approvalKey (json : SerdeJson) (scope : ApprovalScope) (toolName arguments : String) : String :=
  match scope with
  | .toolName => toolName
  | .exactArguments =>
      match json.parse arguments with
      | some value => toolName ++ ":" ++ json.print value.sortedKeys
      | none => toolName ++ ":unparsed:" ++ arguments

end Openheim
