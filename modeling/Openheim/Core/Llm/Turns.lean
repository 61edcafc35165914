import Openheim.Core.Json
import Openheim.Core.Models
import Openheim.Core.Uuid
import Openheim.Library.Exchange

/-
This file holds the shape that the converters of `src/core/llm/anthropic.rs` and `gemini.rs` share:
a message becomes a turn of the assistant or of the user, and tool results are merged into a turn of
the user.
-/

namespace Openheim.Llm

/-- The arguments of a stored call as a JSON object, or an empty object if they are none. -/
def toolInput (json : SerdeJson) (arguments : String) : Json :=
  match json.parse arguments with
  | some (.object entries) => .object entries
  | _ => .object []

/-- The id of a call that the provider sent without one, from a random uuid. -/
def newToolCallId (uuid : Uuid) : String := "call_" ++ String.ofList (Hex.write 32 uuid.toNat)

/-- One turn of the wire format. -/
structure Turn (Part : Type) where
  role : String
  parts : List Part

/-- What a provider makes of the blocks of a message. A tool call keeps its
id, and so does a tool result. -/
structure TurnFormat (Part : Type) where
  assistantRole : String
  assistantParts : List ContentBlock → List Part
  userPart : ContentBlock → Option Part
  emptyText : Part
  resultPart : ToolResultBlock → Part
  callId : Part → Option String
  resultId : Part → Option String
  assistantRole_ne : assistantRole ≠ "user"
  callId_assistantParts : ∀ content, (assistantParts content).filterMap callId =
    (content.filterMap ContentBlock.asToolUse).map ToolUseBlock.id
  resultId_assistantParts : ∀ content, (assistantParts content).filterMap resultId = []
  callId_userPart : ∀ block part, userPart block = some part → callId part = none ∧
    resultId part = none
  callId_emptyText : callId emptyText = none ∧ resultId emptyText = none
  callId_resultPart : ∀ result, callId (resultPart result) = none
  resultId_resultPart : ∀ result, resultId (resultPart result) = some result.toolCallId

variable {Part : Type}

/-- A tool result joins the last turn when that is a turn of the user, and else it begins one. -/
def mergeResult (wire : List (Turn Part)) (part : Part) : List (Turn Part) :=
  match wire.getLast? with
  | some last =>
      if last.role = "user" then wire.dropLast ++ [{ last with parts := last.parts ++ [part] }]
      else wire ++ [⟨"user", [part]⟩]
  | none => wire ++ [⟨"user", [part]⟩]

namespace TurnFormat

/-- Adds one message to the turns so far. The system prompt has a field of its own. -/
def convertMessage (format : TurnFormat Part) (wire : List (Turn Part)) (message : Message) :
    List (Turn Part) :=
  match message.role with
  | .tool =>
      match message.toolResultBlock with
      | none => wire
      | some result => mergeResult wire (format.resultPart result)
  | .assistant =>
      let parts := format.assistantParts message.content
      if parts.isEmpty then wire else wire ++ [⟨format.assistantRole, parts⟩]
  | .user =>
      let parts := message.content.filterMap format.userPart
      wire ++ [⟨"user", if parts.isEmpty then [format.emptyText] else parts⟩]
  | .system => wire

def convertMessages (format : TurnFormat Part) (messages : List Message) : List (Turn Part) :=
  messages.foldl format.convertMessage []

/-- The calls and the results of a turn; only a turn of the user answers. -/
def exchange (format : TurnFormat Part) : Exchange (Turn Part) String where
  calls turn := turn.parts.filterMap format.callId
  results turn := if turn.role = "user" then turn.parts.filterMap format.resultId else []

end TurnFormat

end Openheim.Llm
