import Openheim.Core.Llm.Turns

/-
This file follows the conversion of messages in `src/core/llm/gemini.rs`.
-/

namespace Openheim.Llm

structure GeminiFunctionCall where
  id : Option String
  name : String
  args : Json

structure GeminiFunctionResponse where
  id : Option String
  name : String
  response : Json

structure GeminiInlineData where
  mimeType : String
  data : String

/-- A part of the wire format; every kind of content has a field of its own. -/
structure GeminiPart where
  text : Option String := none
  functionCall : Option GeminiFunctionCall := none
  functionResponse : Option GeminiFunctionResponse := none
  inlineData : Option GeminiInlineData := none
  thoughtSignature : Option String := none

namespace Gemini

/-- The stand-in signature for a call that another provider produced. -/
def skipSignatureValidation : String := "skip_thought_signature_validator"

def assistantPart (json : SerdeJson) : ContentBlock → Option GeminiPart
  | .text text => if text.isEmpty then none else some { text := some text }
  | .toolUse id name arguments signature =>
      some { functionCall := some ⟨some id, name, toolInput json arguments⟩,
             thoughtSignature := signature }
  | _ => none

/-- The first call of a turn gets the stand-in signature. -/
def signFirstCall : List GeminiPart → List GeminiPart
  | [] => []
  | part :: rest =>
      if part.functionCall.isSome then
        { part with thoughtSignature := some skipSignatureValidation } :: rest
      else part :: signFirstCall rest

/-- A turn in which no call has a signature was not produced by this provider. -/
def signForeignFunctionCalls (parts : List GeminiPart) : List GeminiPart :=
  if (parts.filter fun part => part.functionCall.isSome).all fun part =>
    part.thoughtSignature.isNone then
    signFirstCall parts
  else parts

def userPart : ContentBlock → Option GeminiPart
  | .text text => some { text := some text }
  | .image data mimeType => some { inlineData := some ⟨mimeType, data⟩ }
  | _ => none

def callId (part : GeminiPart) : Option String := part.functionCall.bind GeminiFunctionCall.id

def resultId (part : GeminiPart) : Option String :=
  part.functionResponse.bind GeminiFunctionResponse.id

/-- A signature changes no call and no result. -/
theorem signForeignFunctionCalls_filterMap {Kind : Type} {read : GeminiPart → Option Kind}
    (unsigned : ∀ part signature, read { part with thoughtSignature := signature } = read part)
    (parts : List GeminiPart) :
    (signForeignFunctionCalls parts).filterMap read = parts.filterMap read := by
  have first : ∀ parts, (signFirstCall parts).filterMap read = parts.filterMap read := by
    intro parts
    induction parts with
    | nil => rfl
    | cons part rest ih =>
        rw [signFirstCall]
        split
        · simp only [List.filterMap_cons, unsigned]
        · simp only [List.filterMap_cons, ih]
  rw [signForeignFunctionCalls]
  split
  · exact first parts
  · rfl

def format (json : SerdeJson) : TurnFormat GeminiPart where
  assistantRole := "model"
  assistantParts content := signForeignFunctionCalls (content.filterMap (assistantPart json))
  userPart := userPart
  emptyText := { text := some "" }
  resultPart result :=
    { functionResponse := some ⟨some result.toolCallId, result.toolName,
      .object [("result", .string result.content)]⟩ }
  callId := callId
  resultId := resultId
  assistantRole_ne := by decide
  callId_assistantParts content := by
    rw [signForeignFunctionCalls_filterMap fun _ _ => rfl, List.filterMap_filterMap,
      List.map_filterMap]
    congr 1
    funext block
    cases block with
    | text text => simp only [assistantPart, ContentBlock.asToolUse]; split <;> rfl
    | _ => rfl
  resultId_assistantParts content := by
    rw [signForeignFunctionCalls_filterMap fun _ _ => rfl, List.filterMap_filterMap,
      List.filterMap_eq_nil_iff]
    intro block _
    cases block with
    | text text => simp only [assistantPart]; split <;> rfl
    | _ => rfl
  callId_userPart block part converted := by
    cases block with
    | text => cases converted; exact ⟨rfl, rfl⟩
    | image => cases converted; exact ⟨rfl, rfl⟩
    | _ => cases converted
  callId_emptyText := ⟨rfl, rfl⟩
  callId_resultPart _ := rfl
  resultId_resultPart _ := rfl

def convertMessages (json : SerdeJson) (messages : List Message) : List (Turn GeminiPart) :=
  (format json).convertMessages messages

end Gemini

end Openheim.Llm
