import Openheim.Core.Llm.Turns

/-
This file follows the conversion of messages in `src/core/llm/anthropic.rs`.
-/

namespace Openheim.Llm

/-- A content block of the wire format. An image is sent with its base64 data. -/
inductive AnthropicContentBlock where
  | text (text : String)
  | thinking (thinking signature : String)
  | redactedThinking (data : String)
  | image (mediaType data : String)
  | toolUse (id name : String) (input : Json)
  | toolResult (toolUseId content : String) (isError : Bool)

namespace Anthropic

/-- Thinking is replayed only with its signature, and empty text is left out. -/
def assistantBlock (json : SerdeJson) : ContentBlock → Option AnthropicContentBlock
  | .thinking thinking (some signature) => some (.thinking thinking signature)
  | .redactedThinking data => some (.redactedThinking data)
  | .text text => if text.isEmpty then none else some (.text text)
  | .toolUse id name arguments _ => some (.toolUse id name (toolInput json arguments))
  | _ => none

def userBlock : ContentBlock → Option AnthropicContentBlock
  | .text text => some (.text text)
  | .image data mimeType => some (.image mimeType data)
  | _ => none

def callId : AnthropicContentBlock → Option String
  | .toolUse id _ _ => some id
  | _ => none

def resultId : AnthropicContentBlock → Option String
  | .toolResult toolUseId _ _ => some toolUseId
  | _ => none

def format (json : SerdeJson) : TurnFormat AnthropicContentBlock where
  assistantRole := "assistant"
  assistantParts content := content.filterMap (assistantBlock json)
  userPart := userBlock
  emptyText := .text ""
  resultPart result := .toolResult result.toolCallId result.content result.isError
  callId := callId
  resultId := resultId
  assistantRole_ne := by decide
  callId_assistantParts content := by
    rw [List.filterMap_filterMap, List.map_filterMap]
    congr 1
    funext block
    cases block with
    | text text => simp only [assistantBlock, ContentBlock.asToolUse]; split <;> rfl
    | thinking thinking signature => cases signature <;> rfl
    | _ => rfl
  resultId_assistantParts content := by
    rw [List.filterMap_filterMap, List.filterMap_eq_nil_iff]
    intro block _
    cases block with
    | text text => simp only [assistantBlock]; split <;> rfl
    | thinking thinking signature => cases signature <;> rfl
    | _ => rfl
  callId_userPart block part converted := by
    cases block with
    | text => cases converted; exact ⟨rfl, rfl⟩
    | image => cases converted; exact ⟨rfl, rfl⟩
    | _ => cases converted
  callId_emptyText := ⟨rfl, rfl⟩
  callId_resultPart _ := rfl
  resultId_resultPart _ := rfl

def convertMessages (json : SerdeJson) (messages : List Message) :
    List (Turn AnthropicContentBlock) :=
  (format json).convertMessages messages

end Anthropic

end Openheim.Llm
