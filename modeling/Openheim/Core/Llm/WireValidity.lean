import Openheim.Core.Llm.Anthropic
import Openheim.Core.Llm.Gemini
import Openheim.Core.Llm.OpenAi
import Openheim.Core.WellPaired

namespace Openheim

namespace Llm

section Turns
variable {Part : Type} (format : TurnFormat Part) {message : Message}

/-- A result joins the results before it. -/
theorem mergeResult_user (wire : List (Turn Part)) (parts : List Part) (part : Part) :
    mergeResult (wire ++ [⟨"user", parts⟩]) part = wire ++ [⟨"user", parts ++ [part]⟩] := by
  simp [mergeResult]

/-- The first result opens a turn of its own. -/
theorem mergeResult_other {role : String} (other : role ≠ "user") (wire : List (Turn Part))
    (parts : List Part)
    (part : Part) :
    mergeResult (wire ++ [⟨role, parts⟩]) part = wire ++ [⟨role, parts⟩] ++ [⟨"user", [part]⟩] := by
  simp [mergeResult, other]

namespace TurnFormat

/-- The parts that the results of some messages become. -/
def resultParts (results : List Message) : List Part :=
  results.filterMap fun result => result.toolResultBlock.map format.resultPart

theorem calls_resultParts (results : List Message) :
    (format.resultParts results).filterMap format.callId = [] := by
  rw [List.filterMap_eq_nil_iff]
  intro part member
  obtain ⟨result, _, converted⟩ := List.mem_filterMap.mp member
  obtain ⟨block, _, rfl⟩ := Option.map_eq_some_iff.mp converted
  exact format.callId_resultPart block

theorem results_resultParts (results : List Message) :
    (format.resultParts results).filterMap format.resultId = resultIds results := by
  rw [resultParts, resultIds, List.filterMap_filterMap, List.map_filterMap]
  congr 1
  funext result
  cases result.toolResultBlock with
  | none => rfl
  | some block => exact format.resultId_resultPart block

/-- A message that is no tool message adds at most a turn of its own. -/
theorem convertMessage_plain (other : message.role ≠ .tool) (closed : openedCalls message = [])
    (wire : List (Turn Part)) :
    ∃ added, format.convertMessage wire message = wire ++ added ∧
      ∀ turn ∈ added, format.exchange.calls turn = [] ∧ format.exchange.results turn = [] := by
  cases role : message.role with
  | tool => exact absurd role other
  | system => exact ⟨[], by simp [convertMessage, role], by simp⟩
  | assistant =>
      simp only [convertMessage, role]
      split
      · exact ⟨[], by simp, by simp⟩
      · refine ⟨_, rfl, fun turn member => ?_⟩
        rw [List.mem_singleton.mp member]
        have no_calls : message.content.filterMap ContentBlock.asToolUse = [] :=
          (openedCalls_of_assistant role).symm.trans closed
        simp [exchange, format.callId_assistantParts, no_calls, format.assistantRole_ne]
  | user =>
      simp only [convertMessage, role]
      refine ⟨_, rfl, fun turn member => ?_⟩
      rw [List.mem_singleton.mp member]
      have silent :
          ∀ part ∈ if (message.content.filterMap format.userPart).isEmpty then [format.emptyText]
          else message.content.filterMap format.userPart,
          format.callId part = none ∧ format.resultId part = none := by
        intro part among
        split at among
        · rw [List.mem_singleton.mp among]
          exact format.callId_emptyText
        · obtain ⟨block, _, converted⟩ := List.mem_filterMap.mp among
          exact format.callId_userPart block part converted
      simp only [exchange, if_true, List.filterMap_eq_nil_iff]
      exact ⟨fun part among => (silent part among).1, fun part among => (silent part among).2⟩

/-- A result becomes one part, merged into the turns. -/
theorem convertMessage_result {calls : List ToolUseBlock} (result : IsResultOf calls message)
    (wire : List (Turn Part)) :
    ∃ part, format.convertMessage wire message = mergeResult wire part ∧ format.resultParts
      [message] = [part] := by
  obtain ⟨role, block, found, _⟩ := result
  exact ⟨format.resultPart block, by simp [convertMessage, role, found],
    by simp [resultParts, found]⟩

/-- Results join the turn of the user that the first of them began. -/
theorem foldl_results {calls : List ToolUseBlock} {results : List Message}
    (belong : ∀ result ∈ results, IsResultOf calls result) (wire : List (Turn Part))
    (parts : List Part) :
    results.foldl format.convertMessage (wire ++ [⟨"user", parts⟩]) =
      wire ++ [⟨"user", parts ++ format.resultParts results⟩] := by
  induction results generalizing parts with
  | nil => simp [resultParts]
  | cons result results ih =>
      obtain ⟨part, converted, single⟩ :=
        format.convertMessage_result (belong result List.mem_cons_self) (wire ++ [⟨"user", parts⟩])
      have split : format.resultParts (result :: results) = part :: format.resultParts results := by
        rw [← List.singleton_append, resultParts, List.filterMap_append]
        exact congrArg (· ++ format.resultParts results) single
      rw [List.foldl_cons, converted, mergeResult_user,
        ih fun other member => belong other (List.mem_cons_of_mem _ member), split,
          List.append_assoc]
      rfl

/-- Calls and the results right after them become two neighbouring turns. -/
theorem foldl_exchange {reply : Message} {results : List Message}
    (assistant : reply.role = .assistant)
    (calls : reply.toolCalls ≠ []) (belong : ∀ result ∈ results, IsResultOf reply.toolCalls result)
    (answered : ∀ call ∈ reply.toolCalls, call.id ∈ resultIds results) (wire : List (Turn Part)) :
    ∃ caller answer, (reply :: results).foldl format.convertMessage
      wire = wire ++ [caller, answer] ∧
      format.exchange.results caller = [] ∧ format.exchange.calls answer = [] ∧
      ∀ id, id ∈ format.exchange.calls caller ↔ id ∈ format.exchange.results answer := by
  have called := format.callId_assistantParts reply.content
  rw [← Message.toolCalls] at called
  have sent : (format.assistantParts reply.content).isEmpty = false := by
    rw [List.isEmpty_eq_false_iff]
    intro empty
    rw [empty] at called
    exact calls (List.map_eq_nil_iff.mp called.symm)
  have first : format.convertMessage wire reply =
      wire ++ [⟨format.assistantRole, format.assistantParts reply.content⟩] := by
    simp [convertMessage, assistant, sent]
  cases results with
  | nil =>
      obtain ⟨call, member⟩ := List.exists_mem_of_ne_nil _ calls
      exact absurd (answered call member) (by simp [resultIds])
  | cons result results =>
      obtain ⟨part, converted, single⟩ :=
        format.convertMessage_result (belong result List.mem_cons_self)
        (wire ++ [⟨format.assistantRole, format.assistantParts reply.content⟩])
      have parts : format.resultParts (result :: results) = [part] ++
          format.resultParts results := by
        rw [← List.singleton_append, resultParts, List.filterMap_append]
        exact congrArg (· ++ format.resultParts results) single
      refine ⟨⟨format.assistantRole, format.assistantParts reply.content⟩,
        ⟨"user", format.resultParts (result :: results)⟩, ?_, ?_, ?_, fun id => ?_⟩
      · rw [List.foldl_cons, List.foldl_cons, first, converted,
          mergeResult_other format.assistantRole_ne, format.foldl_results fun other member =>
            belong other (List.mem_cons_of_mem _ member), parts]
        simp
      · simp [exchange, format.assistantRole_ne]
      · exact format.calls_resultParts _
      · simp only [exchange, if_true, format.results_resultParts, called]
        exact mem_resultIds_iff_called belong answered

/-- A well-paired list becomes turns in which calls are answered at once. -/
theorem foldl_valid {messages : List Message} (paired : WellPaired messages)
    (wire : List (Turn Part)) :
    ∃ added, messages.foldl format.convertMessage wire = wire ++ added ∧
      format.exchange.AnsweredNext added ∧ format.exchange.Called [] added := by
  induction paired generalizing wire with
  | nil => exact ⟨[], by simp, trivial, trivial⟩
  | @plain message rest other closed _ ih =>
      obtain ⟨turns, converted, silent⟩ := format.convertMessage_plain other closed wire
      obtain ⟨added, tail, next, called⟩ := ih (wire ++ turns)
      refine ⟨turns ++ added, ?_, ?_, ?_⟩
      · rw [List.foldl_cons, converted, tail, List.append_assoc]
      · exact (Exchange.answeredNext_of_no_calls fun turn member =>
          (silent turn member).1).append next
      · exact (Exchange.called_of_no_results fun turn member =>
          (silent turn member).2).append called
  | @exchange reply results rest assistant calls belong answered _ ih =>
      obtain ⟨caller, answer, converted, no_results, no_calls, same⟩ :=
        format.foldl_exchange assistant calls belong answered wire
      obtain ⟨added, tail, next, called⟩ := ih (wire ++ [caller, answer])
      have pair := Exchange.of_pair no_results no_calls same
      refine ⟨[caller, answer] ++ added, ?_, pair.1.append next, pair.2.append called⟩
      rw [← List.cons_append, List.foldl_append, converted, tail, List.append_assoc]

/-- Well paired messages are sent with every call answered in the next turn. -/
theorem convertMessages_valid {messages : List Message} (paired : WellPaired messages) :
    format.exchange.AnsweredNext (format.convertMessages messages) ∧
      format.exchange.Called [] (format.convertMessages messages) := by
  obtain ⟨added, converted, next, called⟩ := format.foldl_valid paired []
  rw [convertMessages, converted, List.nil_append]
  exact ⟨next, called⟩

end TurnFormat
end Turns

namespace OpenAi
variable {message : Message}

/-- Two lists of messages are converted one after the other. -/
theorem convertFrom_append (start index : Nat) (first second : List Message) :
    convertFrom start index (first ++ second) =
      convertFrom start index first ++ convertFrom start (index + first.length) second := by
  induction first generalizing index with
  | nil => rfl
  | cons message rest ih =>
      rw [List.cons_append, convertFrom, convertFrom, ih, List.append_assoc, List.length_cons,
        Nat.add_right_comm]
      rfl

/-- A message that is no tool message and asks for no tools holds neither calls nor results. -/
theorem convertMessage_plain (other : message.role ≠ .tool) (closed : openedCalls message = [])
    (replays : Bool) :
    ∀ sent ∈ (convertMessage replays message).toList, exchange.calls sent = [] ∧
      exchange.results sent = [] := by
  intro sent member
  rw [Option.mem_toList] at member
  cases role : message.role with
  | tool => exact absurd role other
  | system =>
      obtain ⟨text, _, rfl⟩ :=
        Option.map_eq_some_iff.mp (by simpa only [convertMessage, role] using member)
      exact ⟨rfl, rfl⟩
  | user =>
      cases (show some _ = some sent by simpa only [convertMessage, role] using member)
      exact ⟨rfl, rfl⟩
  | assistant =>
      have no_calls : message.toolCalls = [] := (openedCalls_of_assistant role).symm.trans closed
      simp only [convertMessage, role, no_calls, Option.ite_none_left_eq_some,
        Option.some.injEq] at member
      obtain ⟨_, rfl⟩ := member
      exact ⟨rfl, rfl⟩

/-- A message with calls is sent with their ids. -/
theorem convertMessage_calls (assistant : message.role = .assistant)
    (calls : message.toolCalls ≠ []) (replays : Bool) :
    ∃ sent, convertMessage replays message = some sent ∧ exchange.results sent = [] ∧
      exchange.calls sent = message.toolCalls.map ToolUseBlock.id := by
  have asks : message.toolCalls.isEmpty = false := List.isEmpty_eq_false_iff.mpr calls
  refine ⟨⟨"assistant", message.text.map .text, some (message.toolCalls.map requestCall), none,
    if replays then signedThinking message else none⟩, ?_, rfl, ?_⟩
  · simp [convertMessage, assistant, asks]
  · simp [exchange, requestCall, Function.comp_def]

/-- A result is sent with the id of its call. -/
theorem convertMessage_result {calls : List ToolUseBlock} (result : IsResultOf calls message)
    (replays : Bool) :
    ∃ sent block, convertMessage replays message = some sent ∧
      message.toolResultBlock = some block ∧
      isResult sent = true ∧ exchange.calls sent = [] ∧
        exchange.results sent = [block.toolCallId] := by
  obtain ⟨role, block, found, _⟩ := result
  exact ⟨⟨"tool", some (.text block.content), none, some block.toolCallId, none⟩, block,
    by simp [convertMessage, role, found], found, rfl, rfl, rfl⟩

/-- The results of a reply stay separate messages. -/
theorem convertFrom_results {calls : List ToolUseBlock} {results : List Message}
    (belong : ∀ result ∈ results, IsResultOf calls result) (start index : Nat) :
    (∀ sent ∈ convertFrom start index results, isResult sent = true ∧ exchange.calls sent = []) ∧
      ∀ id, (∃ sent ∈ convertFrom start index results, id ∈ exchange.results sent) ↔
        id ∈ resultIds results := by
  induction results generalizing index with
  | nil => simp [convertFrom, resultIds]
  | cons result results ih =>
      obtain ⟨kinds, ids⟩ :=
        ih (fun other member => belong other (List.mem_cons_of_mem _ member)) (index + 1)
      obtain ⟨sent, block, converted, found, kind, no_calls, result_id⟩ :=
        convertMessage_result (belong result List.mem_cons_self) (start ≤ index)
      rw [convertFrom, converted, Option.toList_some, List.singleton_append]
      constructor
      · intro other member
        rcases List.mem_cons.mp member with rfl | later
        · exact ⟨kind, no_calls⟩
        · exact kinds other later
      · intro id
        have step : id ∈ resultIds (result :: results) ↔ id = block.toolCallId ∨
            id ∈ resultIds results := by
          simp [resultIds, found]
        rw [step, ← ids id]
        simp [result_id]

/-- Well paired messages are sent with every call answered right behind it. -/
theorem convertFrom_valid {messages : List Message} (paired : WellPaired messages)
    (start index : Nat) :
    exchange.AnsweredFirst isResult (convertFrom start index messages) ∧
      exchange.Called [] (convertFrom start index messages) := by
  induction paired generalizing index with
  | nil => exact ⟨trivial, trivial⟩
  | @plain message rest other closed _ ih =>
      obtain ⟨first, called⟩ := ih (index + 1)
      have silent := convertMessage_plain other closed (start ≤ index)
      exact ⟨(Exchange.answeredFirst_of_no_calls fun sent member =>
        (silent sent member).1).append first,
          (Exchange.called_of_no_results fun sent member => (silent sent member).2).append called⟩
  | @exchange reply results rest assistant calls belong answered _ ih =>
      obtain ⟨first, called⟩ := ih (index + (reply :: results).length)
      obtain ⟨sent, converted, no_results, asked⟩ :=
        convertMessage_calls assistant calls (start ≤ index)
      obtain ⟨kinds, ids⟩ := convertFrom_results belong start (index + 1)
      have answers := Exchange.of_answers no_results (fun item member => (kinds item member).2)
        (fun item member => (kinds item member).1) (fun id => ?_)
      · rw [← List.cons_append, convertFrom_append, convertFrom, converted]
        exact ⟨answers.1.append first, answers.2.append called⟩
      · rw [ids, asked]
        exact mem_resultIds_iff_called belong answered

end OpenAi

/-- In what each provider is sent, every tool call is answered where the provider expects it, and no
result comes before its call. -/
structure ValidRequest (json : SerdeJson) (messages : List Message) : Prop where
  anthropic :
    (Anthropic.format json).exchange.AnsweredNext (Anthropic.convertMessages json messages) ∧
    (Anthropic.format json).exchange.Called [] (Anthropic.convertMessages json messages)
  gemini : (Gemini.format json).exchange.AnsweredNext (Gemini.convertMessages json messages) ∧
    (Gemini.format json).exchange.Called [] (Gemini.convertMessages json messages)
  openAi : ∀ replayThinking,
    OpenAi.exchange.AnsweredFirst OpenAi.isResult (OpenAi.convertMessages messages replayThinking) ∧
      OpenAi.exchange.Called [] (OpenAi.convertMessages messages replayThinking)

/-- Well paired messages make a valid request for every provider. -/
theorem ValidRequest.of_wellPaired (json : SerdeJson) {messages : List Message}
    (paired : WellPaired messages) :
    ValidRequest json messages where
  anthropic := (Anthropic.format json).convertMessages_valid paired
  gemini := (Gemini.format json).convertMessages_valid paired
  openAi replayThinking :=
    OpenAi.convertFrom_valid paired (OpenAi.toolLoopStart messages replayThinking) 0

end Llm

end Openheim
