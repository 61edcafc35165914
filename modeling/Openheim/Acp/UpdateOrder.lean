import Openheim.Acp.Responses

/-
A client is told of the events of a turn in their order and before its response, and only of
sessions that it has asked for.
-/

namespace Openheim.Acp

section Messages

/-- A client is told of something by an update or by a response. -/
def ServerMessage.tells : ServerMessage → Bool
  | .response _ _ | .update _ _ => true
  | .request _ _ => false

/-- What a turn or the event loop sent, in order. -/
def sentBy (turn : Option Nat) (wire : List Sent) : List ServerMessage :=
  (wire.filter fun sent => sent.turn = turn).map Sent.message

/-- The updates of a reply, and then its response. -/
def Replied.messages (replied : Replied) : List ServerMessage :=
  replied.updates ++ [.response replied.id replied.result]

/-- What the event loop has still to send. -/
def AcpConnection.unsent (c : AcpConnection) : List ServerMessage :=
  match c.handling with
  | some (.replying id updates result) => Replied.messages ⟨id, updates, result⟩
  | _ => []

/-- The events of a turn as updates of its session, and then its response, if it has ended. -/
def PromptTask.messages (served : Served) (task : PromptTask) : List ServerMessage :=
  (acpUpdates served.json served.executor task.events).map (.update task.sessionId) ++
    (task.outcome.map (.response task.request)).toList

/-- The client has prompted a session or has it loaded. -/
def AcpConnection.AsksFor (c : AcpConnection) (sessionId : String) : Prop :=
  ∃ id, (∃ blocks, .request id (.prompt sessionId blocks) ∈ c.arrived) ∨
    ∃ cwd, .request id (.loadSession sessionId cwd) ∈ c.arrived

theorem sentBy_append (turn : Option Nat) (first second : List Sent) :
    sentBy turn (first ++ second) = sentBy turn first ++ sentBy turn second := by
  rw [sentBy, List.filter_append, List.map_append, sentBy, sentBy]

/-- A sender's own messages are all its own. -/
theorem sentBy_own (turn : Option Nat) (messages : List ServerMessage) :
    sentBy turn (messages.map (Sent.mk turn)) = messages := by
  rw [sentBy, List.filter_eq_self.mpr]
  · rw [List.map_map]
    exact List.map_id' messages
  · intro sent among
    obtain ⟨_, -, same⟩ := List.mem_map.mp among
    rw [← same]
    exact decide_eq_true rfl

/-- The messages of one sender are none of another's. -/
theorem sentBy_other {turn other : Option Nat} (apart : other ≠ turn)
    (messages : List ServerMessage) :
    sentBy turn (messages.map (Sent.mk other)) = [] := by
  rw [sentBy, List.filter_eq_nil_iff.mpr]
  · rfl
  · intro sent among
    obtain ⟨_, -, same⟩ := List.mem_map.mp among
    rw [← same]
    exact fun equal => apart (of_decide_eq_true equal)

end Messages

section Order
variable {served : Served} {c d : AcpConnection}

/-- Each turn has told of its events, the event loop has sent its replies but for
what is left of the last one. -/
structure AcpConnection.Ordered (served : Served) (c : AcpConnection) : Prop where
  turns : ∀ turn, (sentBy (some turn) c.wire).filter ServerMessage.tells =
    ((c.turns turn).map (PromptTask.messages served)).getD []
  loop : sentBy none c.wire ++ c.unsent = c.replied.flatMap Replied.messages
  free : ∀ turn, c.spawned ≤ turn → c.turns turn = none

/-- What another sender adds is none of a turn's. -/
theorem turns_other {sender : Option Nat} (messages : List ServerMessage) {turn : Nat}
    (apart : sender ≠ some turn) (wire : List Sent) :
    sentBy (some turn) (wire ++ messages.map (Sent.mk sender)) = sentBy (some turn) wire := by
  rw [sentBy_append, sentBy_other apart, List.append_nil]

/-- What a turn sends is what its task then has told, and the other turns
have nothing to do with it. -/
theorem turns_send {turn : Nat} {task after : PromptTask} (messages : List ServerMessage)
    (ordered : c.Ordered served) (found : c.turns turn = some task)
    (more : task.messages served ++ messages.filter ServerMessage.tells = after.messages served)
    (other : Nat) :
    (sentBy (some other) (c.wire ++ messages.map (Sent.mk (some turn)))).filter
      ServerMessage.tells =
      ((Function.update c.turns turn (some after) other).map (PromptTask.messages served)).getD
        [] := by
  by_cases own : other = turn
  · subst own
    rw [sentBy_append, sentBy_own, List.filter_append, ordered.turns, found, Function.update_self]
    exact more
  · rw [turns_other messages fun same => own (Option.some.inj same).symm, Function.update_of_ne own]
    exact ordered.turns other

/-- A turn that sends is in its slot. -/
theorem free_kept {turn : Nat} {task after : PromptTask} (ordered : c.Ordered served)
    (found : c.turns turn = some task)
    (other : Nat) (above : c.spawned ≤ other) :
    Function.update c.turns turn (some after) other = none := by
  have apart : other ≠ turn := by
    rintro rfl
    rw [ordered.free other above] at found
    cases found
  rw [Function.update_of_ne apart]
  exact ordered.free other above

/-- The message of an event, if there is one, as a list. -/
theorem event_messages (turn : Nat) (sessionId : String) (event : StreamEvent) :
    ((streamEventToSessionUpdate served.json served.executor event).map fun update =>
      Sent.mk (some turn) (.update sessionId update)).toList =
      ((acpUpdates served.json served.executor [event]).map (.update sessionId)).map
        (Sent.mk (some turn)) := by
  rw [acpUpdates]
  cases told : streamEventToSessionUpdate served.json served.executor event with
  | none => rw [List.filterMap_cons_none told]; rfl
  | some update => rw [List.filterMap_cons_some told]; rfl

/-- Updates tell of something. -/
theorem updates_tell (sessionId : String) (updates : List SessionUpdate) :
    (updates.map (ServerMessage.update sessionId)).filter ServerMessage.tells =
      updates.map (.update sessionId) := by
  refine List.filter_eq_self.mpr fun message among => ?_
  obtain ⟨_, -, same⟩ := List.mem_map.mp among
  rw [← same]
  rfl

/-- What the event loop adds to its replies is what it has still to send. -/
theorem loop_replies {id : RequestId} {updates : List ServerMessage}
    {result : Except AcpError Reply} (ordered : c.Ordered served) (nothing : c.unsent = []) :
    sentBy none c.wire ++ Replied.messages ⟨id, updates, result⟩ =
      (c.replied ++ [Replied.mk id updates result]).flatMap Replied.messages := by
  have before := ordered.loop
  rw [nothing, List.append_nil] at before
  rw [List.flatMap_append, before, List.flatMap_singleton]

/-- A turn sends nothing for the event loop. -/
theorem loop_other {turn : Nat} (ordered : c.Ordered served) (messages : List ServerMessage) :
    sentBy none (c.wire ++ messages.map (Sent.mk (some turn))) ++ c.unsent =
      c.replied.flatMap Replied.messages := by
  rw [sentBy_append, sentBy_other (Option.some_ne_none turn), List.append_nil]
  exact ordered.loop

/-- A step sends the next message of its sender. -/
theorem ordered_kept (before : c.Ordered served) (move : AcpMove served c d) :
    d.Ordered served := by
  have idle_unsent : c.handling = none → c.unsent = [] := by
    intro idle
    rw [AcpConnection.unsent, idle]
  cases move with
  | arrive | ignore | answer | drop => exact ⟨before.turns, before.loop, before.free⟩
  | cancel idle first =>
      have loop := before.loop
      rw [idle_unsent idle] at loop
      exact ⟨before.turns, loop, before.free⟩
  | replyAtOnce capabilities result idle first known =>
      exact ⟨before.turns, loop_replies before (idle_unsent idle), before.free⟩
  | call call idle first leads =>
      have loop := before.loop
      rw [idle_unsent idle] at loop
      exact ⟨before.turns, loop, before.free⟩
  | @spawn id sessionId blocks rest idle first =>
      refine ⟨fun turn => ?_, before.loop, fun turn above => ?_⟩
      · dsimp only [AcpConnection.spawn]
        by_cases own : turn = c.spawned
        · subst own
          rw [Function.update_self, before.turns, before.free _ (Nat.le_refl _)]
          rfl
        · rw [Function.update_of_ne own]
          exact before.turns turn
      · have past : c.spawned + 1 ≤ turn := above
        dsimp only [AcpConnection.spawn]
        rw [Function.update_of_ne (by omega)]
        exact before.free turn (by omega)
  | returns waits finished =>
      have nothing : c.unsent = [] := by rw [AcpConnection.unsent, waits]
      exact ⟨before.turns, loop_replies before nothing, before.free⟩
  | cancelled cancelling =>
      have loop := before.loop
      have nothing : c.unsent = [] := by rw [AcpConnection.unsent, cancelling]
      rw [nothing] at loop
      exact ⟨before.turns, loop, before.free⟩
  | @sendUpdate id update updates result replying =>
      have loop := before.loop
      have left : c.unsent = update :: Replied.messages ⟨id, updates, result⟩ := by
        rw [AcpConnection.unsent, replying]
        rfl
      refine ⟨fun turn => ?_, ?_, before.free⟩
      · exact (congrArg _ (turns_other [update] (Option.some_ne_none turn).symm c.wire)).trans
          (before.turns turn)
      · rw [← loop, left]
        change sentBy none (c.wire ++ [update].map (Sent.mk none)) ++ _ = _
        rw [sentBy_append, sentBy_own, List.append_assoc]
        rfl
  | @sendResponse id result replying =>
      have loop := before.loop
      have left : c.unsent = [.response id result] := by
        rw [AcpConnection.unsent, replying]
        rfl
      refine ⟨fun turn => ?_, ?_, before.free⟩
      · exact (congrArg _ (turns_other [.response id result] (Option.some_ne_none turn).symm
          c.wire)).trans (before.turns turn)
      · rw [← loop, left]
        change
          sentBy none (c.wire ++ [ServerMessage.response id result].map (Sent.mk none)) ++ [] = _
        rw [sentBy_append, sentBy_own, List.append_nil]
  | @event turn task blocks event found runs converted =>
      rw [event_messages]
      refine ⟨turns_send _ before found ?_, loop_other before _, free_kept before found⟩
      rw [PromptTask.messages, PromptTask.messages, runs, updates_tell, acpUpdates, acpUpdates,
        acpUpdates, List.filterMap_append, List.map_append]
      simp only [Option.map_none, Option.toList_none, List.append_nil]
  | @ask turn task blocks question found runs converted allowed =>
      let asks : List ServerMessage := [.request c.asked (question.toRequest served task.sessionId)]
      refine ⟨fun other => ?_, loop_other before asks, before.free⟩
      have sent := turns_send asks before found (List.append_nil _) other
      rw [← found, Function.update_eq_self] at sent
      exact sent
  | @ends turn task result found runs =>
      let answer : List ServerMessage := [.response task.request (task.response served result)]
      refine ⟨turns_send answer before found ?_, loop_other before answer, free_kept before found⟩
      rw [PromptTask.messages, PromptTask.messages, runs]
      simp only [Option.map_none, Option.toList_none, List.append_nil]
      rfl

end Order

section Owners
variable {served : Served} {c d : AcpConnection}

/-- A reply shows nothing, or a session that its request loads. -/
def Replied.Shows (served : Served) (arrived : List ClientMessage) (replied : Replied) : Prop :=
  replied.updates = [] ∨ ∃ sessionId cwd loaded,
    .request replied.id (.loadSession sessionId cwd) ∈ arrived ∧
      replied.updates = (loadedUpdates served loaded).map (.update sessionId)

/-- A turn has the prompt of its request, and tells of nothing when this cannot be converted. -/
def PromptTask.Answers (arrived : List ClientMessage) (task : PromptTask) : Prop :=
  ∃ blocks, .request task.request (.prompt task.sessionId blocks) ∈ arrived ∧
    task.prompt = convertPromptBlocks blocks ∧ ∀ error, task.prompt = .error error →
      task.events = []

/-- What is done on a connection goes back to the messages of its client. -/
structure AcpConnection.Traced (served : Served) (c : AcpConnection) : Prop where
  inbox : ∀ message ∈ c.inbox, message ∈ c.arrived
  calls : ∀ id sessionId cwd, c.handling = some (.waiting id (.loadSession sessionId cwd)) →
    .request id (.loadSession sessionId cwd) ∈ c.arrived
  replying : ∀ id updates result, c.handling = some (.replying id updates result) →
    ∀ sessionId update, .update sessionId update ∈ updates → c.AsksFor sessionId
  turns : ∀ turn task, c.turns turn = some task → task.Answers c.arrived
  replied : ∀ replied ∈ c.replied, replied.Shows served c.arrived
  owned : ∀ sent ∈ c.wire, ∀ sessionId update, sent.message = .update sessionId update →
    c.AsksFor sessionId

/-- Later messages change nothing about the earlier ones. -/
theorem AcpConnection.AsksFor.arrive {sessionId : String} (asks : c.AsksFor sessionId)
    (message : ClientMessage) :
    AcpConnection.AsksFor
      { c with arrived := c.arrived ++ [message], inbox := c.inbox ++ [message] } sessionId := by
  obtain ⟨id, prompted | loaded⟩ := asks
  · obtain ⟨blocks, among⟩ := prompted
    exact ⟨id, .inl ⟨blocks, List.mem_append_left _ among⟩⟩
  · obtain ⟨cwd, among⟩ := loaded
    exact ⟨id, .inr ⟨cwd, List.mem_append_left _ among⟩⟩

/-- One more message on the wire, of a session that was asked for. -/
theorem owned_more {messages : List Sent} (owned : ∀ sent ∈ c.wire, ∀ sessionId update,
      sent.message = .update sessionId update → c.AsksFor sessionId)
    (more : ∀ sent ∈ messages, ∀ sessionId update, sent.message = .update sessionId update →
      c.AsksFor sessionId) :
    ∀ sent ∈ c.wire ++ messages, ∀ sessionId update,
      sent.message = .update sessionId update → c.AsksFor sessionId := by
  intro sent among
  cases List.mem_append.mp among with
  | inl before => exact owned sent before
  | inr now => exact more sent now

/-- A turn in its slot answers its prompt, and so do the others. -/
theorem answers_kept {turn : Nat} {after : PromptTask}
    (answers : ∀ turn task, c.turns turn = some task →
      task.Answers c.arrived) (own : after.Answers c.arrived) (other : Nat) (task : PromptTask)
    (found : Function.update c.turns turn (some after) other = some task) :
    task.Answers c.arrived := by
  obtain ⟨-, rfl⟩ | ⟨-, old⟩ := held_update found
  · exact own
  · exact answers other task old

/-- A message that arrives leaves everything going back to the earlier ones. -/
theorem traced_arrive (before : c.Traced served) (message : ClientMessage) :
    AcpConnection.Traced served
      { c with arrived := c.arrived ++ [message], inbox := c.inbox ++ [message] } := by
  obtain ⟨inbox, calls, replying, turns, replied, owned⟩ := before
  refine ⟨?_, ?_, ?_, ?_, ?_, ?_⟩
  · intro other among
    cases List.mem_append.mp among with
    | inl earlier => exact List.mem_append_left _ (inbox other earlier)
    | inr now => exact List.mem_append_right _ now
  · exact fun id sessionId cwd waits => List.mem_append_left _ (calls id sessionId cwd waits)
  · exact fun id updates result sends sessionId update among =>
      (replying id updates result sends sessionId update among).arrive message
  · intro turn task found
    obtain ⟨blocks, among, converted⟩ := turns turn task found
    exact ⟨blocks, List.mem_append_left _ among, converted⟩
  · intro reply among
    obtain nothing | ⟨sessionId, cwd, loaded, asked, shown⟩ := replied reply among
    · exact .inl nothing
    · exact .inr ⟨sessionId, cwd, loaded, List.mem_append_left _ asked, shown⟩
  · exact fun sent among sessionId update same =>
      (owned sent among sessionId update same).arrive message

/-- The updates of a reply are of a session that the client has loaded. -/
theorem asksFor_shown {replied : Replied} (shows_ : replied.Shows served c.arrived)
    {sessionId : String} {update : SessionUpdate}
    (among : .update sessionId update ∈ replied.updates) : c.AsksFor sessionId := by
  obtain nothing | ⟨loadedId, cwd, loaded, asked, shown⟩ := shows_
  · rw [nothing] at among
    cases among
  · rw [shown] at among
    obtain ⟨_, -, same⟩ := List.mem_map.mp among
    cases same
    exact ⟨replied.id, .inr ⟨cwd, asked⟩⟩

/-- A step acts only on messages that have arrived. -/
theorem traced_kept (before : c.Traced served) (move : AcpMove served c d) : d.Traced served := by
  have arrives := traced_arrive before
  obtain ⟨inbox, calls, replying, turns, replied, owned⟩ := before
  have later {message : ClientMessage} {rest : List ClientMessage}
      (first : c.inbox = message :: rest) :
      message ∈ c.arrived ∧ ∀ other ∈ rest, other ∈ c.arrived := by
    rw [first] at inbox
    exact List.forall_mem_cons.mp inbox
  cases move with
  | arrive message => exact arrives message
  | ignore idle first other => exact ⟨(later first).2, calls, replying, turns, replied, owned⟩
  | cancel idle first =>
      refine ⟨(later first).2, ?_, ?_, turns, replied, owned⟩
      · rintro _ _ _ ⟨⟩
      · rintro _ _ _ ⟨⟩
  | answer idle first waits => exact ⟨(later first).2, calls, replying, turns, replied, owned⟩
  | replyAtOnce capabilities result idle first known =>
      refine ⟨(later first).2, ?_, ?_, turns, ?_, owned⟩
      · rintro _ _ _ ⟨⟩
      · rintro _ _ _ ⟨⟩ _ _ ⟨⟩
      · exact List.forall_mem_append.mpr ⟨replied, List.forall_mem_singleton.mpr (.inl rfl)⟩
  | @call id request rest call idle first leads =>
      refine ⟨(later first).2, ?_, ?_, turns, replied, owned⟩
      · rintro _ sessionId cwd ⟨⟩
        have same := leads sessionId cwd rfl
        exact same ▸ (later first).1
      · rintro _ _ _ ⟨⟩
  | @spawn id sessionId blocks rest idle first =>
      refine ⟨(later first).2, calls, replying, answers_kept turns ?_, replied, owned⟩
      exact ⟨blocks, (later first).1, rfl, fun _ _ => rfl⟩
  | @returns id call result updates answer waits finished =>
      have shows : Replied.Shows served c.arrived ⟨id, updates, answer⟩ := by
        obtain nothing | ⟨sessionId, cwd, loaded, rfl, shown⟩ := finish_updates finished
        · exact .inl nothing
        · exact .inr ⟨sessionId, cwd, loaded, calls id sessionId cwd waits, shown⟩
      refine ⟨inbox, ?_, ?_, turns, ?_, owned⟩
      · rintro _ _ _ ⟨⟩
      · rintro _ _ _ ⟨⟩ sessionId update among
        exact asksFor_shown shows among
      · exact List.forall_mem_append.mpr ⟨replied, List.forall_mem_singleton.mpr shows⟩
  | cancelled cancelling =>
      refine ⟨inbox, ?_, ?_, turns, replied, owned⟩
      · rintro _ _ _ ⟨⟩
      · rintro _ _ _ ⟨⟩
  | @sendUpdate id update updates result sends =>
      have told := replying id _ result sends
      refine ⟨inbox, ?_, ?_, turns, replied, owned_more owned ?_⟩
      · rintro _ _ _ ⟨⟩
      · rintro _ _ _ ⟨⟩ sessionId update among
        exact told sessionId update (List.mem_cons_of_mem _ among)
      · refine List.forall_mem_singleton.mpr fun sessionId shown same => ?_
        have first : update = .update sessionId shown := same
        exact told sessionId shown (first ▸ List.mem_cons_self)
  | sendResponse sends =>
      refine ⟨inbox, ?_, ?_, turns, replied, owned_more owned ?_⟩
      · rintro _ _ _ ⟨⟩
      · rintro _ _ _ ⟨⟩
      · refine List.forall_mem_singleton.mpr ?_
        rintro _ _ ⟨⟩
  | @event turn task blocks event found runs converted =>
      obtain ⟨asked, among, same, -⟩ := turns turn task found
      refine ⟨inbox, calls, replying, answers_kept turns ?_, replied, owned_more owned ?_⟩
      · refine ⟨asked, among, same, fun error failed => ?_⟩
        have failed : task.prompt = .error error := failed
        rw [converted] at failed
        cases failed
      · rw [event_messages]
        intro sent added sessionId update told
        obtain ⟨message, shown, rfl⟩ := List.mem_map.mp added
        obtain ⟨_, -, rfl⟩ := List.mem_map.mp shown
        cases told
        exact ⟨task.request, .inl ⟨asked, among⟩⟩
  | ask question found runs converted allowed =>
      refine ⟨inbox, calls, replying, turns, replied, owned_more owned ?_⟩
      refine List.forall_mem_singleton.mpr ?_
      rintro _ _ ⟨⟩
  | @ends turn task result found runs =>
      refine ⟨inbox, calls, replying, answers_kept turns (turns turn task found), replied,
        owned_more owned ?_⟩
      refine List.forall_mem_singleton.mpr ?_
      rintro _ _ ⟨⟩
  | drop waits => exact ⟨inbox, calls, replying, turns, replied, owned⟩

theorem ordered_reachable (reached : (acpMachine served).Reachable c) : c.Ordered served := by
  refine reached.invariant ?_ fun _ _ _ before _ stepped => ordered_kept before (step_moves stepped)
  rintro _ rfl
  exact ⟨fun _ => rfl, rfl, fun _ _ => rfl⟩

theorem traced_reachable (reached : (acpMachine served).Reachable c) : c.Traced served := by
  refine reached.invariant ?_ fun _ _ _ before _ stepped => traced_kept before (step_moves stepped)
  rintro _ rfl
  refine ⟨?_, ?_, ?_, ?_, ?_, ?_⟩
  · rintro _ ⟨⟩
  · rintro _ _ _ ⟨⟩
  · rintro _ _ _ ⟨⟩
  · rintro _ _ ⟨⟩
  · rintro _ ⟨⟩
  · rintro _ ⟨⟩

/-- A turn tells its client of its events in their order, under the session of its prompt, and of
its end after them. The event loop sends its replies one after the other, each with the session that
it loads before it. No update is of a session that the client has neither prompted nor loaded. -/
theorem updates_in_order (reached : (acpMachine served).Reachable c) :
    (∀ turn task, c.turns turn = some task →
      (sentBy (some turn) c.wire).filter ServerMessage.tells = task.messages served ∧
        task.Answers c.arrived) ∧
    sentBy none c.wire ++ c.unsent = c.replied.flatMap Replied.messages ∧
    (∀ replied ∈ c.replied, replied.Shows served c.arrived) ∧
    ∀ sent ∈ c.wire, ∀ sessionId update, sent.message = .update sessionId update →
      c.AsksFor sessionId := by
  have ordered := ordered_reachable reached
  have traced := traced_reachable reached
  refine ⟨fun turn task found => ⟨?_, traced.turns turn task found⟩, ordered.loop, traced.replied,
    traced.owned⟩
  rw [ordered.turns, found]
  rfl

/-- While a session is shown, the turn of another one goes on and ends. -/
def shownTraffic : List AcpAction :=
  sampleTraffic ++ [.event 0 (.llmResponse " may."), .sendReply, .ends 0 (.ok .endTurn)]

/-- The turn has told of both pieces and of its end; of the loaded
session only the response is left. -/
theorem updates_in_order_sample :
    ∃ c, (acpMachine sampleServed).exec .initial shownTraffic = some c ∧
    (sentBy (some 0) c.wire).filter ServerMessage.tells =
      [.update "s" (.agentMessageChunk (.text "I" false)),
        .update "s" (.agentMessageChunk (.text " may." false)),
        .response (.number 1) (.ok (.prompt .endTurn))] ∧
    sentBy none c.wire ++ [.response (.number 2) (.ok (.loadSession ⟨"small", []⟩ .code))] =
      [.response (.number 0) (.ok (.initialized 1 (initializeDetails sampleServed))),
        .update "t" (.agentMessageChunk (.text "Moved." false)),
        .update "t" (.userMessageChunk (.text "Hi." false)),
        .response (.number 2) (.ok (.loadSession ⟨"small", []⟩ .code))] ∧
    c.AsksFor "t" := by
  obtain ⟨c, task, executed, found, told⟩ : ∃ c task,
      (acpMachine sampleServed).exec .initial shownTraffic = some c ∧ c.turns 0 = some task ∧
        c.wire[5]? = some ⟨none, .update "t" (.userMessageChunk (.text "Hi." false))⟩ :=
          ⟨_, _, rfl, rfl, rfl⟩
  obtain ⟨turns, loop, -, owned⟩ := updates_in_order (Machine.reachable_of_exec rfl executed)
  refine ⟨c, executed, (turns 0 task found).1.trans ?_, ?_,
    owned _ (List.mem_of_getElem? told) "t" _ rfl⟩
  · cases executed
    cases found
    rfl
  · cases executed
    exact loop

end Owners

end Openheim.Acp
