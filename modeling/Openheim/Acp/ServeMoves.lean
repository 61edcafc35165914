import Openheim.Acp.Serve

/-
What a step of a connection does, said once for every step.
-/

namespace Openheim.Acp
open Openheim.Tools

/-- The call of the runtime that a request leads to loads a session
only for a request to load it. -/
def ClientCall.LeadsTo (request : ClientCall) (call : StateCall) : Prop :=
  ∀ sessionId cwd, call = .loadSession sessionId cwd → request = .loadSession sessionId cwd

/-- The outcomes of a step, each with the checks that it has passed. -/
inductive AcpMove (served : Served) (c : AcpConnection) : AcpConnection → Prop where
  | arrive (message : ClientMessage) :
      AcpMove served c { c with arrived := c.arrived ++ [message], inbox := c.inbox ++ [message] }
  | ignore {message : ClientMessage} {rest : List ClientMessage} (idle : c.handling = none)
      (first : c.inbox = message :: rest) (other : ∀ id call, message ≠ .request id call) :
      AcpMove served c { c with inbox := rest }
  | cancel {sessionId : String} {rest : List ClientMessage} (idle : c.handling = none)
      (first : c.inbox = .cancel sessionId :: rest) :
      AcpMove served c { c with inbox := rest, handling := some (.cancelling sessionId) }
  | answer {number turn : Nat} {answer : ClientAnswer} {question : Question}
      {rest : List ClientMessage}
      (idle : c.handling = none) (first : c.inbox = .response number answer :: rest)
      (waits : c.questions number = some ⟨turn, question, .waiting⟩) :
      AcpMove served c
        { c with
          inbox := rest
          questions :=
            Function.update c.questions number (some ⟨turn, question, .answered answer⟩) }
  | replyAtOnce {id : RequestId} {request : ClientCall} {rest : List ClientMessage}
      (capabilities : ClientCapabilities) (result : Except AcpError Reply)
      (idle : c.handling = none)
      (first : c.inbox = .request id request :: rest)
      (known : capabilities = c.capabilities ∨ ∃ version,
        request = .initializeRequest version capabilities) :
      AcpMove served c ({ c with inbox := rest, capabilities }.reply id [] result)
  | call {id : RequestId} {request : ClientCall} {rest : List ClientMessage} (call : StateCall)
      (idle : c.handling = none) (first : c.inbox = .request id request :: rest)
      (leads : request.LeadsTo call) :
      AcpMove served c ({ c with inbox := rest }.call id call)
  | spawn {id : RequestId} {sessionId : String} {blocks : List PromptBlock}
      {rest : List ClientMessage}
      (idle : c.handling = none)
      (first : c.inbox = .request id (.prompt sessionId blocks) :: rest) :
      AcpMove served c ({ c with inbox := rest }.spawn id sessionId blocks)
  | returns {id : RequestId} {call : StateCall} {result : StateResult}
      {updates : List ServerMessage}
      {answer : Except AcpError Reply} (waits : c.handling = some (.waiting id call))
      (finished : finish served call result = some (updates, answer)) :
      AcpMove served c (c.reply id updates answer)
  | cancelled {sessionId : String} (cancelling : c.handling = some (.cancelling sessionId)) :
      AcpMove served c { c with handling := none }
  | sendUpdate {id : RequestId} {update : ServerMessage} {updates : List ServerMessage}
      {result : Except AcpError Reply}
      (replying : c.handling = some (.replying id (update :: updates) result)) :
      AcpMove served c
        { c with
          handling := some (.replying id updates result), wire := c.wire ++ [⟨none, update⟩] }
  | sendResponse {id : RequestId} {result : Except AcpError Reply}
      (replying : c.handling = some (.replying id [] result)) :
      AcpMove served c { c with handling := none, wire := c.wire ++ [⟨none, .response id result⟩] }
  | event {turn : Nat} {task : PromptTask} {blocks : List ContentBlock} (event : StreamEvent)
      (found : c.turns turn = some task) (runs : task.outcome = none)
      (converted : task.prompt = .ok blocks) :
      AcpMove served c
        { c with
          turns :=
            Function.update c.turns turn (some { task with events := task.events ++ [event] })
          wire :=
            c.wire ++ ((streamEventToSessionUpdate served.json served.executor event).map
              fun update => Sent.mk (some turn) (.update task.sessionId update)).toList }
  | ask {turn : Nat} {task : PromptTask} {blocks : List ContentBlock} (question : Question)
      (found : c.turns turn = some task) (runs : task.outcome = none)
      (converted : task.prompt = .ok blocks)
      (allowed : c.capabilities.allow question = true) :
      AcpMove served c
        { c with
          questions := Function.update c.questions c.asked (some ⟨turn, question, .waiting⟩)
          asked := c.asked + 1
          wire :=
            c.wire ++ [⟨some turn, .request c.asked (question.toRequest served task.sessionId)⟩] }
  | ends {turn : Nat} {task : PromptTask} (result : Except Error StopReason)
      (found : c.turns turn = some task)
      (runs : task.outcome = none) :
      AcpMove served c
        { c with
          turns :=
            Function.update c.turns turn
              (some { task with outcome := some (task.response served result) })
          wire := c.wire ++ [⟨some turn, .response task.request (task.response served result)⟩] }
  | drop {number turn : Nat} {question : Question}
      (waits : c.questions number = some ⟨turn, question, .waiting⟩) :
      AcpMove served c
        { c with questions := Function.update c.questions number (some ⟨turn, question, .dropped⟩) }

section Moves
variable {served : Served} {c d : AcpConnection}

/-- A running turn is one that has not ended. -/
theorem AcpConnection.running_eq_some {turn : Nat} {task : PromptTask}
    (running : c.running turn = some task) :
    c.turns turn = some task ∧ task.outcome = none := by
  obtain ⟨found, runs⟩ := Option.filter_eq_some_iff.mp running
  exact ⟨found, Option.isNone_iff_eq_none.mp runs⟩

theorem handle_moves {message : ClientMessage} {rest : List ClientMessage}
    (idle : c.handling = none)
    (first : c.inbox = message :: rest) :
    AcpMove served c ({ c with inbox := rest }.handle served message) := by
  cases message with
  | request id request =>
      cases request with
      | initializeRequest version capabilities =>
          exact .replyAtOnce capabilities _ idle first (.inr ⟨version, rfl⟩)
      | newSession details cwd =>
          refine .call _ idle first ?_
          rintro _ _ ⟨⟩
      | prompt sessionId blocks => exact .spawn idle first
      | listSessions cwd =>
          refine .call _ idle first ?_
          rintro _ _ ⟨⟩
      | loadSession sessionId cwd =>
          refine .call _ idle first ?_
          rintro _ _ ⟨⟩
          rfl
      | setSessionConfigOption sessionId configId value =>
          simp only [AcpConnection.handle, AcpConnection.handleRequest]
          split
          · exact .replyAtOnce _ _ idle first (.inl rfl)
          · cases value with
            | none => exact .replyAtOnce _ _ idle first (.inl rfl)
            | some modelId =>
                refine .call _ idle first ?_
                rintro _ _ ⟨⟩
      | setSessionMode sessionId modeId =>
          refine .call _ idle first ?_
          rintro _ _ ⟨⟩
      | other => exact .replyAtOnce _ _ idle first (.inl rfl)
  | cancel sessionId => exact .cancel idle first
  | notification =>
      refine .ignore idle first ?_
      rintro _ _ ⟨⟩
  | response number answer =>
      rw [AcpConnection.handle, AcpConnection.handleResponse]
      split
      · next turn question waits => exact .answer idle first waits
      · refine .ignore idle first ?_
        rintro _ _ ⟨⟩

/-- Every step of a connection has one of these outcomes. -/
theorem step_moves {action : AcpAction} (stepped : c.step served action = some d) :
    AcpMove served c d := by
  cases action with
  | arrive message =>
      cases stepped
      exact .arrive message
  | take =>
      rw [AcpConnection.step, AcpConnection.take] at stepped
      split at stepped
      · next message rest idle first =>
        cases stepped
        exact handle_moves idle first
      · cases stepped
  | returns result =>
      rw [AcpConnection.step, AcpConnection.returns] at stepped
      split at stepped
      · next id call waits =>
        obtain ⟨⟨updates, answer⟩, finished, same⟩ := Option.map_eq_some_iff.mp stepped
        cases same
        exact .returns waits finished
      · cases stepped
  | cancelled =>
      rw [AcpConnection.step] at stepped
      split at stepped
      · next cancelling =>
        cases stepped
        exact .cancelled cancelling
      · cases stepped
  | sendReply =>
      rw [AcpConnection.step, AcpConnection.sendReply] at stepped
      split at stepped
      · next replying =>
        cases stepped
        exact .sendUpdate replying
      · next replying =>
        cases stepped
        exact .sendResponse replying
      · cases stepped
  | event turn event =>
      obtain ⟨task, running, sent⟩ := Option.bind_eq_some_iff.mp stepped
      obtain ⟨found, runs⟩ := AcpConnection.running_eq_some running
      split at sent
      · next blocks converted =>
        cases sent
        exact .event event found runs converted
      · cases sent
  | ask turn question =>
      obtain ⟨task, running, sent⟩ := Option.bind_eq_some_iff.mp stepped
      obtain ⟨found, runs⟩ := AcpConnection.running_eq_some running
      split at sent
      · next blocks converted =>
        obtain ⟨allowed, same⟩ := Option.ite_none_right_eq_some.mp sent
        cases same
        exact .ask question found runs converted allowed
      · cases sent
  | ends turn result =>
      obtain ⟨task, running, same⟩ := Option.map_eq_some_iff.mp stepped
      obtain ⟨found, runs⟩ := AcpConnection.running_eq_some running
      cases same
      exact .ends result found runs
  | drop number =>
      rw [AcpConnection.step, AcpConnection.drop] at stepped
      split at stepped
      · next waits =>
        cases stepped
        exact .drop waits
      · cases stepped

end Moves

end Openheim.Acp
