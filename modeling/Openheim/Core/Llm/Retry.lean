import Openheim.Core.Agent
import Openheim.Library.Machine

/-
This file follows the streaming of `src/core/llm/retry.rs`: the inner client sends chunks into a
channel of its attempt, a forwarder passes them on to the caller, and an attempt that failed before
its first chunk is repeated.
-/

namespace Openheim.Llm

def maxRetries : Nat := 3

/-- Where the call of `send_streaming` stands: the inner client is running, its call returned and
the forwarder is awaited, the call waits before a retry, or it returned. -/
inductive RetryPhase where
  | calling
  | joining (result : Except Error Choice)
  | sleeping
  | finished (result : Except Error Choice)

/-- One attempt with the chunks that the inner client sent and its result. -/
structure Attempt where
  chunks : List LlmChunk
  result : Except Error Choice

/-- The call with the forwarder of its attempt. The chunks of the attempt and the attempts that are
over are recorded beside what the code holds. -/
structure RetryState where
  attempt : Nat
  phase : RetryPhase
  channel : List LlmChunk
  forwarding : Bool
  emitted : Bool
  listening : Bool
  forwarded : List LlmChunk
  sent : List LlmChunk
  tried : List Attempt

/-- What may happen next: the inner client sends or returns, the forwarder passes a chunk on or
ends, the call takes the result or goes on after its wait, and the caller stops listening. -/
inductive RetryAction where
  | send (chunk : LlmChunk)
  | answer (result : Except Error Choice)
  | forward
  | drained
  | resolve
  | wake
  | hangUp

namespace RetryState

def new : RetryState := ⟨0, .calling, [], true, false, true, [], [], []⟩

section Step
variable (timeoutOrConnect : String → Bool) (s : RetryState)

/-- The forwarder notes that there was a chunk before it passes it on,
and ends if nobody listens. -/
def forward (chunk : LlmChunk) (rest : List LlmChunk) : RetryState :=
  if s.listening then
    { s with emitted := true, channel := rest, forwarded := s.forwarded ++ [chunk] }
  else { s with emitted := true, channel := [], forwarding := false }

/-- Whether a result is followed by another attempt. -/
def retries : Except Error Choice → Bool
  | .ok _ => false
  | .error error => s.attempt < maxRetries ∧ error.isRetryable timeoutOrConnect ∧ ¬s.emitted

def resolve (result : Except Error Choice) : RetryState :=
  { s with
    phase := if s.retries timeoutOrConnect result then .sleeping else .finished result
    tried := s.tried ++ [⟨s.sent, result⟩] }

/-- A new attempt has a channel and a forwarder of its own. -/
def nextAttempt : RetryState :=
  { s with
    attempt := s.attempt + 1, phase := .calling, channel := [], forwarding := true, emitted :=
      false, sent := [] }

/-- What the call, its forwarder and its two ends do. The channel of an attempt is closed when the
inner call returns. -/
def step : RetryAction → Option RetryState
  | .send chunk =>
      match s.phase with
      | .calling =>
          some { s with
            sent := s.sent ++ [chunk], channel := if s.forwarding then s.channel ++ [chunk]
              else s.channel }
      | _ => none
  | .answer result =>
      match s.phase with
      | .calling => some { s with phase := .joining result }
      | _ => none
  | .forward =>
      match s.forwarding, s.channel with
      | true, chunk :: rest => some (s.forward chunk rest)
      | _, _ => none
  | .drained =>
      match s.phase, s.forwarding, s.channel with
      | .joining _, true, [] => some { s with forwarding := false }
      | _, _, _ => none
  | .resolve =>
      match s.phase, s.forwarding with
      | .joining result, false => some (s.resolve timeoutOrConnect result)
      | _, _ => none
  | .wake =>
      match s.phase with
      | .sleeping => some s.nextAttempt
      | _ => none
  | .hangUp => some { s with listening := false }

end Step

end RetryState

def retryMachine (timeoutOrConnect : String → Bool) : Machine RetryState RetryAction where
  start s := s = .new
  step := RetryState.step timeoutOrConnect

end Openheim.Llm
