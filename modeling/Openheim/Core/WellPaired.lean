import Openheim.Core.Request

namespace Openheim

/-- The call ids that the results of a message list answer. -/
def resultIds (messages : List Message) : List String :=
  (messages.filterMap Message.toolResultBlock).map ToolResultBlock.toolCallId

/-- A tool message that holds the result of one of some calls. -/
def IsResultOf (calls : List ToolUseBlock) (message : Message) : Prop :=
  message.role = .tool ∧ ∃ block, message.toolResultBlock = some block ∧
    block.toolCallId ∈ calls.map ToolUseBlock.id

/-- Every tool call has its result among the tool messages right after it, and
no other tool messages occur. -/
inductive WellPaired : List Message → Prop where
  | nil : WellPaired []
  | plain {message : Message} {rest : List Message} :
      message.role ≠ .tool → openedCalls message = [] →
      WellPaired rest → WellPaired (message :: rest)
  | exchange {reply : Message} {results rest : List Message} :
      reply.role = .assistant → reply.toolCalls ≠ [] →
      (∀ result ∈ results, IsResultOf reply.toolCalls result) →
      (∀ call ∈ reply.toolCalls, call.id ∈ resultIds results) →
      WellPaired rest → WellPaired (reply :: (results ++ rest))

theorem mem_resultIds {messages : List Message} {id : String} :
    id ∈ resultIds messages ↔ ∃ message ∈ messages, ∃ block, message.toolResultBlock = some block ∧
      block.toolCallId = id := by
  simp only [resultIds, List.mem_map, List.mem_filterMap]
  constructor
  · rintro ⟨block, ⟨message, member, found⟩, same⟩
    exact ⟨message, member, block, found, same⟩
  · rintro ⟨message, member, block, found, same⟩
    exact ⟨block, ⟨message, member, found⟩, same⟩

/-- The results of a reply answer exactly its calls. -/
theorem mem_resultIds_iff_called {calls : List ToolUseBlock} {results : List Message} {id : String}
    (belong : ∀ result ∈ results, IsResultOf calls result)
    (answered : ∀ call ∈ calls, call.id ∈ resultIds results) :
    id ∈ calls.map ToolUseBlock.id ↔ id ∈ resultIds results := by
  constructor
  · intro member
    obtain ⟨call, asked, rfl⟩ := List.mem_map.mp member
    exact answered call asked
  · intro member
    obtain ⟨answer, among, block, found, rfl⟩ := mem_resultIds.mp member
    obtain ⟨_, other, same, belongs⟩ := belong answer among
    rw [found] at same
    cases same
    exact belongs

section Requests
variable {messages rest : List Message}

/-- A well-paired list stays so from one of its user messages on. -/
theorem WellPaired.drop (paired : WellPaired messages) {cut : Nat} {first : Message}
    (begins : messages.drop cut = first :: rest) (role : first.role = .user) :
    WellPaired (first :: rest) := by
  induction paired generalizing cut with
  | nil => simp at begins
  | plain other closed tail ih =>
      cases cut with
      | zero =>
          rw [List.drop_zero] at begins
          exact begins ▸ .plain other closed tail
      | succ cut => exact ih begins
  | @exchange reply results after assistant calls belong answered tail ih =>
      cases cut with
      | zero =>
          rw [List.drop_zero] at begins
          exact begins ▸ .exchange assistant calls belong answered tail
      | succ cut =>
          rw [List.drop_succ_cons, List.drop_append] at begins
          cases within : results.drop cut with
          | nil =>
              rw [within, List.nil_append] at begins
              exact ih begins
          | cons result others =>
              rw [within, List.cons_append, List.cons.injEq] at begins
              have member : result ∈ results := List.mem_of_mem_drop (within ▸ List.mem_cons_self)
              have tool := (belong result member).1
              rw [begins.1, role] at tool
              cases tool

/-- The note changes neither the role nor the calls of the first message. -/
theorem WellPaired.withNote {first : Message} (paired : WellPaired (first :: rest))
    (role : first.role = .user)
    (dropped : Nat) : WellPaired (withNote dropped (first :: rest)) := by
  cases paired with
  | plain _ _ tail =>
      refine .plain ?_ (openedCalls_of_other ?_) tail
      · simp [role]
      · simp [role]
  | exchange assistant =>
      rw [role] at assistant
      cases assistant

theorem WellPaired.fit (paired : WellPaired messages) (fitter : ContextFitter) :
    WellPaired (fitter.fit messages).messages := by
  rcases fitter.fit_messages messages with whole | ⟨cut, first, rest, begins, role, kept⟩
  · rw [whole]
    exact paired
  · rw [kept]
    exact (paired.drop begins role).withNote role cut

/-- The system message in front makes no call. -/
theorem WellPaired.build (paired : WellPaired messages) (builder : PromptBuilder) :
    WellPaired (builder.build messages) := by
  rw [PromptBuilder.build]
  split
  · exact paired
  · exact .plain (by simp) rfl paired

/-- What is sent is well-paired as soon as the repaired history is. -/
theorem WellPaired.prepareRequest (paired : WellPaired (answerMissingToolResults messages))
    (promptBuilder : Option PromptBuilder) (fitter : ContextFitter) :
    WellPaired (prepareRequest messages promptBuilder fitter).messages := by
  cases promptBuilder with
  | none => exact paired.fit fitter
  | some builder => exact (paired.fit fitter).build builder

end Requests

end Openheim
