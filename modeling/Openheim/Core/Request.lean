import Openheim.Core.Context
import Openheim.Memory.Prompt

/-
This file follows the request that `src/core/agent.rs` prepares for each call of the model.
-/

namespace Openheim

/-- The result sent in place of one missing from the history. -/
def missingToolResult : String :=
  "No result: the turn was interrupted before this tool call finished."

/-- The calls that a message opens: only an assistant message asks for tools. -/
def openedCalls (message : Message) : List ToolUseBlock :=
  match message.role with
  | .assistant => message.toolCalls
  | _ => []

theorem openedCalls_of_assistant {message : Message} (role : message.role = .assistant) :
    openedCalls message = message.toolCalls := by
  rw [openedCalls, role]

theorem openedCalls_of_other {message : Message} (other : message.role ≠ .assistant) :
    openedCalls message = [] := by
  cases role : message.role with
  | assistant => exact absurd role other
  | system => rw [openedCalls, role]
  | user => rw [openedCalls, role]
  | tool => rw [openedCalls, role]

/-- Each call without an answer gets an error result. -/
def missingResults (calls : List ToolUseBlock) (answered : List String) : List Message :=
  (calls.filter fun call => call.id ∉ answered).map fun call =>
    .toolResult call.id call.name missingToolResult true

/-- Copies a history, and puts the missing results of the open calls right
after those that did arrive. -/
def answerOpenCalls : List ToolUseBlock → List String → List Message → List Message
  | calls, answered, [] => missingResults calls answered
  | [], _, message :: rest => message :: answerOpenCalls (openedCalls message) [] rest
  | call :: calls, answered, message :: rest =>
      match message.toolResultBlock with
      | some result => message :: answerOpenCalls (call :: calls)
          (result.toolCallId :: answered) rest
      | none =>
          missingResults (call :: calls) answered ++ message :: answerOpenCalls
            (openedCalls message) [] rest

/-- The history with an error result for every tool call that has none. -/
def answerMissingToolResults (messages : List Message) : List Message :=
  answerOpenCalls [] [] messages

/-- One request as it is sent. -/
structure Request where
  messages : List Message
  fitted : Fitted
  bytes : Nat

/-- Unanswered calls are answered, the oldest turns are left out, and the
system prompt comes in front. -/
def prepareRequest (messages : List Message) (promptBuilder : Option PromptBuilder)
    (fitter : ContextFitter) :
    Request :=
  let fitted := fitter.fit (answerMissingToolResults messages)
  let sent :=
    match promptBuilder with
    | some builder => builder.build fitted.messages
    | none => fitted.messages
  ⟨sent, fitted, fitter.requestBytes fitted.messages⟩

end Openheim
