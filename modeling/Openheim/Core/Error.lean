import Openheim.Core.Models

namespace Openheim

/-- A 128-bit conversation id. -/
abbrev Uuid := BitVec 128

/-- Points of time and durations are counted in nanoseconds. -/
abbrev Instant := Nat

/-- The errors of the modelled operations, with the fields that name what failed. The wait that a
provider asks for comes with its status. -/
inductive Error where
  | ioError
  | jsonError
  | notFound (what : String)
  | conversationNotFound (id : Uuid)
  | invalidArgument (reason : String)
  | configError (reason : String)
  | apiError (reason : String)
  | parseError (reason : String)
  | tomlError (reason : String)
  | reqwestError (reason : String)
  | incompleteResponse (reason : String)
  | databaseError (reason : String)
  | toolExecutionError (reason : String)
  | contextOverflow (reason : String)
  | historyDiverged (sessionId : Uuid)
  | sessionLocked (sessionId : Uuid) (pid : Nat) (host : String)
  | sessionBusy (sessionId : String)
  | httpError (status : Nat) (body : String) (retryAfter : Option Nat)
  deriving DecidableEq, Repr

/-- The longest wait that is waited out before a retry, ten seconds. -/
def maxRetryAfter : Nat := 10000000000

/-- Errors that may not occur again. Only the HTTP library knows which of its errors are a timeout
or a failed connection. -/
def Error.isRetryable (timeoutOrConnect : String → Bool) : Error → Bool
  | .httpError status _ retryAfter =>
      status ∈ [429, 500, 502, 503, 504, 529] ∧ retryAfter.all fun wait => wait ≤ maxRetryAfter
  | .reqwestError reason => timeoutOrConnect reason
  | .incompleteResponse _ => true
  | _ => false

end Openheim
