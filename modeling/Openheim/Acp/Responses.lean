import Openheim.Acp.ServeMoves
import Openheim.Library.Numbered

/-
Every request of a client is answered once, and no turn keeps the event loop from the next message.
-/

namespace Openheim.Acp

section Requests

def ClientMessage.requestId : ClientMessage → Option RequestId
  | .request id _ => some id
  | _ => none

/-- The requests among some messages of the client. -/
def requestIds (messages : List ClientMessage) : List RequestId :=
  messages.filterMap ClientMessage.requestId

def ServerMessage.responseTo : ServerMessage → Option RequestId
  | .response id _ => some id
  | _ => none

/-- The requests that were answered, as often as they were. -/
def respondedIds (wire : List Sent) : List RequestId :=
  wire.filterMap fun sent => sent.message.responseTo

def Handling.requestId : Handling → Option RequestId
  | .waiting id _ | .replying id _ _ => some id
  | .cancelling _ => none

/-- The request that the event loop handles. -/
def AcpConnection.handledRequest (c : AcpConnection) : List RequestId :=
  (c.handling.bind Handling.requestId).toList

/-- The prompts whose turns run. -/
def AcpConnection.runningRequests (c : AcpConnection) : List RequestId :=
  numbered (fun turn => (c.running turn).map PromptTask.request) c.spawned

/-- The requests that wait for their answers. -/
def AcpConnection.pending (c : AcpConnection) : List RequestId :=
  c.handledRequest ++ c.runningRequests ++ requestIds c.inbox

theorem requestIds_append (first second : List ClientMessage) :
    requestIds (first ++ second) = requestIds first ++ requestIds second := List.filterMap_append

/-- A message that is no request counts for none. -/
theorem requestIds_other {message : ClientMessage} {rest : List ClientMessage}
    (other : ∀ id call, message ≠ .request id call) :
    requestIds (message :: rest) = requestIds rest := by
  refine List.filterMap_cons_none ?_
  cases message with
  | request id call => exact absurd rfl (other id call)
  | cancel | notification | response => rfl

theorem respondedIds_append (first second : List Sent) :
    respondedIds (first ++ second) = respondedIds first ++ respondedIds second :=
  List.filterMap_append

/-- Messages that are no responses answer nothing. -/
theorem respondedIds_others {wire : List Sent}
    (others : ∀ sent ∈ wire, sent.message.responseTo = none) :
    respondedIds wire = [] := List.filterMap_eq_nil_iff.mpr others

/-- What is shown while a session is loaded are its updates, and no other call shows anything. -/
theorem finish_updates {served : Served} {call : StateCall} {result : StateResult}
    {updates : List ServerMessage}
    {answer : Except AcpError Reply}
    (finished : finish served call result = some (updates, answer)) :
    updates = [] ∨ ∃ sessionId cwd loaded, call = .loadSession sessionId cwd ∧
      updates = (loadedUpdates served loaded).map (.update sessionId) := by
  cases call with
  | loadSession sessionId cwd =>
      cases result with
      | loaded result =>
          cases result with
          | ok loaded =>
              cases finished
              exact .inr ⟨sessionId, cwd, loaded, rfl, rfl⟩
          | error error =>
              cases finished
              exact .inl rfl
      | created | listed | changed => cases finished
  | newSession =>
      cases result <;> cases finished
      exact .inl rfl
  | listSessions =>
      cases result <;> cases finished
      exact .inl rfl
  | setSessionModel =>
      cases result <;> cases finished
      exact .inl rfl
  | setSessionMode =>
      cases result <;> cases finished
      exact .inl rfl

end Requests

section Running
variable {c : AcpConnection}

/-- A turn that tells of events still runs for its prompt. -/
theorem runningRequests_event {turn : Nat} {task : PromptTask} (found : c.turns turn = some task)
    (runs : task.outcome = none) (events : List StreamEvent) (wire : List Sent) :
    AcpConnection.runningRequests
      { c with turns := Function.update c.turns turn (some { task with events := events }), wire } =
      c.runningRequests := by
  refine numbered_congr fun n _ => ?_
  dsimp only [AcpConnection.running]
  by_cases own : n = turn
  · subst own
    rw [Function.update_self, found, Option.filter_some_pos (by rw [runs]; rfl),
      Option.filter_some_pos (by rw [runs]; rfl), Option.map_some, Option.map_some]
  · rw [Function.update_of_ne own]

/-- A turn that has ended runs no more. -/
theorem runningRequests_ends {turn : Nat} {task : PromptTask} (found : c.turns turn = some task)
    (runs : task.outcome = none) (inside : turn < c.spawned) (outcome : Except AcpError Reply)
    (wire : List Sent) :
    c.runningRequests.Perm (task.request :: AcpConnection.runningRequests
      { c with
        turns := Function.update c.turns turn (some { task with outcome := some outcome }),
          wire }) := by
  have held : (c.running turn).map PromptTask.request = some task.request := by
    rw [AcpConnection.running, found, Option.filter_some_pos (by rw [runs]; rfl), Option.map_some]
  refine (numbered_remove held inside).trans (.cons _ (.of_eq (numbered_congr fun n _ => ?_)))
  dsimp only [AcpConnection.running]
  by_cases own : n = turn
  · subst own
    rw [Function.update_self, Function.update_self]
    rfl
  · rw [Function.update_of_ne own, Function.update_of_ne own]

/-- A prompt that comes runs last. -/
theorem runningRequests_spawn (id : RequestId) (sessionId : String) (blocks : List PromptBlock) :
    (c.spawn id sessionId blocks).runningRequests = c.runningRequests ++ [id] := by
  have turns : (c.spawn id sessionId blocks).turns = Function.update c.turns c.spawned
      (some ⟨id, sessionId, convertPromptBlocks blocks, [], none⟩) := rfl
  rw [AcpConnection.runningRequests, AcpConnection.runningRequests, ← numbered_add]
  refine numbered_congr fun n _ => ?_
  rw [AcpConnection.running, turns]
  by_cases own : n = c.spawned
  · subst own
    rw [Function.update_self, Function.update_self]
    rfl
  · rw [Function.update_of_ne own, Function.update_of_ne own, AcpConnection.running]

end Running

section Accounting
variable {served : Served} {c d : AcpConnection}

/-- Each request was answered or waits, and what comes before a reply answers nothing. -/
structure AcpConnection.Accounted (c : AcpConnection) : Prop where
  requests : (requestIds c.arrived).Perm (respondedIds c.wire ++ c.pending)
  shown : ∀ id updates result, c.handling = some (.replying id updates result) →
    ∀ update ∈ updates, update.responseTo = none
  below : ∀ turn task, c.turns turn = some task → turn < c.spawned

/-- What a step adds and what it answers account for the requests that wait after it. -/
theorem requests_kept {new answered : List RequestId}
    (before : (requestIds c.arrived).Perm (respondedIds c.wire ++ c.pending))
    (arrived : requestIds d.arrived = requestIds c.arrived ++ new)
    (wire : respondedIds d.wire = respondedIds c.wire ++ answered)
    (moved : (c.pending ++ new).Perm (answered ++ d.pending)) :
    (requestIds d.arrived).Perm (respondedIds d.wire ++ d.pending) := by
  rw [arrived, wire, List.append_assoc]
  refine (before.append_right new).trans ?_
  rw [List.append_assoc]
  exact moved.append_left _

/-- A step that neither brings nor answers a request leaves the others where they are. -/
theorem requests_same (before : (requestIds c.arrived).Perm (respondedIds c.wire ++ c.pending))
    (arrived : d.arrived = c.arrived) (wire : respondedIds d.wire = respondedIds c.wire)
    (pending : d.pending.Perm c.pending) :
    (requestIds d.arrived).Perm (respondedIds d.wire ++ d.pending) := by
  rw [arrived, wire]
  exact before.trans (pending.symm.append_left _)

/-- The request that is taken from the inbox waits in the hands of the event loop. -/
theorem pending_taken {id : RequestId} {request : ClientCall} {rest : List ClientMessage}
    (idle : c.handling = none) (first : c.inbox = .request id request :: rest)
    (handled : d.handledRequest = [id]) (running : d.runningRequests = c.runningRequests)
    (inbox : d.inbox = rest) : d.pending.Perm c.pending := by
  have free : c.handledRequest = [] := by rw [AcpConnection.handledRequest, idle]; rfl
  rw [AcpConnection.pending, AcpConnection.pending, handled, running, inbox, first, free]
  exact List.perm_middle.symm

/-- A message that is no request leaves those that wait. -/
theorem pending_other {message : ClientMessage} {rest : List ClientMessage}
    (first : c.inbox = message :: rest) (other : ∀ id call, message ≠ .request id call)
    (handled : d.handledRequest = c.handledRequest)
    (running : d.runningRequests = c.runningRequests)
    (inbox : d.inbox = rest) : d.pending.Perm c.pending := by
  rw [AcpConnection.pending, AcpConnection.pending, handled, running, inbox, first,
    requestIds_other other]

/-- An update of a turn answers nothing. -/
theorem respondedIds_told {turn : Option Nat} {sessionId : String} (wire : List Sent)
    (update : Option SessionUpdate) :
    respondedIds
      (wire ++ (update.map fun update => Sent.mk turn (.update sessionId update)).toList) =
      respondedIds wire := by
  rw [respondedIds_append]
  cases update <;> exact List.append_nil _

/-- A turn that starts or goes on leaves the others in their slots. -/
theorem turns_below {turn spawned : Nat} {task : PromptTask} (inside : turn < spawned)
    (below : ∀ turn task, c.turns turn = some task → turn < spawned) (other : Nat)
    (its : PromptTask)
    (found : Function.update c.turns turn (some task) other = some its) : other < spawned := by
  obtain ⟨rfl, -⟩ | ⟨-, old⟩ := held_update found
  · exact inside
  · exact below other its old

/-- A step answers a request at most once, and forgets none. -/
theorem accounted_kept (before : c.Accounted) (move : AcpMove served c d) : d.Accounted := by
  obtain ⟨requests, shown, below⟩ := before
  cases move with
  | arrive message =>
      refine ⟨@requests_kept c _ _ [] requests (requestIds_append _ _)
        (List.append_nil _).symm ?_, shown, below⟩
      change (c.pending ++ requestIds [message]).Perm
        (c.handledRequest ++ c.runningRequests ++ requestIds (c.inbox ++ [message]))
      rw [requestIds_append, ← List.append_assoc, AcpConnection.pending]
  | ignore idle first other =>
      exact ⟨requests_same requests rfl rfl (pending_other first other rfl rfl rfl), shown, below⟩
  | @cancel sessionId rest idle first =>
      refine ⟨requests_same requests rfl rfl (pending_other first ?_ ?_ rfl rfl), ?_, below⟩
      · rintro _ _ ⟨⟩
      · rw [AcpConnection.handledRequest, AcpConnection.handledRequest, idle]
        rfl
      · rintro _ _ _ ⟨⟩
  | answer idle first waits =>
      refine ⟨requests_same requests rfl rfl (pending_other first ?_ rfl rfl rfl), shown, below⟩
      rintro _ _ ⟨⟩
  | replyAtOnce capabilities result idle first known =>
      refine ⟨requests_same requests rfl rfl (pending_taken idle first rfl rfl rfl), ?_, below⟩
      rintro _ _ _ ⟨⟩ update ⟨⟩
  | call call idle first leads =>
      refine ⟨requests_same requests rfl rfl (pending_taken idle first rfl rfl rfl), ?_, below⟩
      rintro _ _ _ ⟨⟩
  | @spawn id sessionId blocks rest idle first =>
      refine ⟨requests_same requests rfl rfl ?_, ?_, ?_⟩
      · rw [AcpConnection.pending, runningRequests_spawn, AcpConnection.pending, first]
        change (c.handledRequest ++ (c.runningRequests ++ [id]) ++ requestIds rest).Perm
          (c.handledRequest ++ c.runningRequests ++ ([id] ++ requestIds rest))
        rw [← List.append_assoc, ← List.append_assoc]
      · exact fun id updates result replying => shown id updates result replying
      · exact turns_below (Nat.lt_succ_self _) fun turn task found =>
          Nat.lt_succ_of_lt (below turn task found)
  | @returns id call result updates answer waits finished =>
      refine ⟨requests_same requests rfl rfl ?_, ?_, below⟩
      · have handled : c.handledRequest = [id] := by rw [AcpConnection.handledRequest, waits]; rfl
        rw [AcpConnection.pending, AcpConnection.pending, handled]
        rfl
      · rintro _ _ _ ⟨⟩ update among
        obtain none | ⟨sessionId, cwd, loaded, -, all⟩ := finish_updates finished
        · rw [none] at among
          cases among
        · rw [all] at among
          obtain ⟨_, -, same⟩ := List.mem_map.mp among
          rw [← same]
          rfl
  | cancelled cancelling =>
      refine ⟨requests_same requests rfl rfl ?_, ?_, below⟩
      · have handled : c.handledRequest = [] := by
          rw [AcpConnection.handledRequest, cancelling]
          rfl
        rw [AcpConnection.pending, AcpConnection.pending, handled]
        rfl
      · rintro _ _ _ ⟨⟩
  | @sendUpdate id update updates result replying =>
      have silent := shown id _ result replying
      refine ⟨requests_same requests rfl ?_ ?_, ?_, below⟩
      · rw [respondedIds_append]
        refine (congrArg _ (respondedIds_others fun sent among => ?_)).trans (List.append_nil _)
        rw [List.mem_singleton.mp among]
        exact silent update List.mem_cons_self
      · have handled : c.handledRequest = [id] := by
          rw [AcpConnection.handledRequest, replying]
          rfl
        rw [AcpConnection.pending, AcpConnection.pending, handled]
        rfl
      · rintro _ _ _ ⟨⟩ update among
        exact silent update (List.mem_cons_of_mem _ among)
  | @sendResponse id result replying =>
      refine ⟨@requests_kept c _ [] [id] requests (List.append_nil _).symm
        (respondedIds_append _ _) ?_, ?_, below⟩
      · have handled : c.handledRequest = [id] := by
          rw [AcpConnection.handledRequest, replying]
          rfl
        rw [AcpConnection.pending, AcpConnection.pending, handled, List.append_nil]
        rfl
      · rintro _ _ _ ⟨⟩
  | @event turn task blocks event found runs converted =>
      refine ⟨requests_same requests rfl (respondedIds_told _ _) ?_, shown,
        turns_below (below turn task found) below⟩
      rw [AcpConnection.pending, AcpConnection.pending, runningRequests_event found runs]
      rfl
  | ask question found runs converted allowed =>
      refine ⟨requests_same requests rfl ?_ ?_, shown, below⟩
      · rw [respondedIds_append]
        exact List.append_nil _
      · exact .refl _
  | @ends turn task result found runs =>
      have inside := below turn task found
      refine ⟨@requests_kept c _ [] [task.request] requests (List.append_nil _).symm
        (respondedIds_append _ _) ?_, shown, turns_below inside below⟩
      rw [List.append_nil, AcpConnection.pending, AcpConnection.pending]
      have running := runningRequests_ends found runs inside (task.response served result)
        (c.wire ++ [⟨some turn, .response task.request (task.response served result)⟩])
      exact ((running.append_left _).trans List.perm_middle).append_right _
  | drop waits => exact ⟨requests_same requests rfl rfl (.refl _), shown, below⟩

end Accounting

section EventLoop
variable {served : Served} {runtime : StateCall → StateResult} {c d : AcpConnection}

/-- The event loop acts alone, and its calls of the runtime return what is given. -/
def AcpAction.OfLoop (runtime : StateCall → StateResult) (c : AcpConnection) : AcpAction → Prop
  | .take | .cancelled | .sendReply => True
  | .returns result => ∃ id call, c.handling = some (.waiting id call) ∧ result = runtime call
  | _ => False

/-- Some steps of the event loop alone, which leave the messages that wait. -/
structure LoopRuns (served : Served) (runtime : StateCall → StateResult)
    (c d : AcpConnection) : Prop where
  runs : (acpMachine served).Runs (AcpAction.OfLoop runtime) c d
  arrived : d.arrived = c.arrived

theorem LoopRuns.step {e : AcpConnection} {action : AcpAction}
    (stepped : c.step served action = some d)
    (allowed : action.OfLoop runtime c) (arrived : d.arrived = c.arrived)
    (rest : LoopRuns served runtime d e) : LoopRuns served runtime c e :=
  ⟨rest.runs.head ⟨action, allowed, stepped⟩, rest.arrived.trans arrived⟩

theorem LoopRuns.trans {e : AcpConnection} (first : LoopRuns served runtime c d)
    (second : LoopRuns served runtime d e) : LoopRuns served runtime c e :=
  ⟨first.runs.trans second.runs, second.arrived.trans first.arrived⟩

/-- The rest of a reply is sent. -/
theorem loop_sends {id : RequestId} {updates : List ServerMessage} {result : Except AcpError Reply}
    (replying : c.handling = some (.replying id updates result)) :
    ∃ d, LoopRuns served runtime c d ∧ d.handling = none ∧ d.inbox = c.inbox := by
  induction updates generalizing c with
  | nil =>
      have stepped : c.step served .sendReply =
          some { c with handling := none, wire := c.wire ++ [⟨none, .response id result⟩] } := by
        rw [AcpConnection.step, AcpConnection.sendReply, replying]
      exact ⟨_, .step stepped trivial rfl ⟨.refl, rfl⟩, rfl, rfl⟩
  | cons update updates ih =>
      have stepped : c.step served .sendReply =
          some { c with
            handling := some (.replying id updates result), wire :=
                c.wire ++ [⟨none, update⟩] } := by
        rw [AcpConnection.step, AcpConnection.sendReply, replying]
      obtain ⟨d, rest, idle, inbox⟩ := @ih { c with
        handling := some (.replying id updates result), wire := c.wire ++ [⟨none, update⟩] } rfl
      exact ⟨d, .step stepped trivial rfl rest, idle, inbox⟩

/-- The event loop gets done with a message, as its calls of the runtime return. -/
theorem loop_settles (returns : ∀ call, (finish served call (runtime call)).isSome)
    (c : AcpConnection) :
    ∃ d, LoopRuns served runtime c d ∧ d.handling = none ∧ d.inbox = c.inbox := by
  cases handling : c.handling with
  | none => exact ⟨c, ⟨.refl, rfl⟩, handling, rfl⟩
  | some task =>
      cases task with
      | waiting id call =>
          obtain ⟨⟨updates, answer⟩, finished⟩ := Option.isSome_iff_exists.mp (returns call)
          have stepped : c.step served (.returns (runtime call)) =
              some (c.reply id updates answer) := by
            rw [AcpConnection.step, AcpConnection.returns, handling]
            exact congrArg (Option.map fun finished => c.reply id finished.1 finished.2) finished
          obtain ⟨d, rest, idle, inbox⟩ := @loop_sends served runtime (c.reply id updates answer) id
            updates answer rfl
          exact ⟨d, .step stepped ⟨id, call, handling, rfl⟩ rfl rest, idle, inbox⟩
      | cancelling sessionId =>
          have stepped : c.step served .cancelled = some { c with handling := none } := by
            rw [AcpConnection.step, handling]
          exact ⟨_, .step stepped trivial rfl ⟨.refl, rfl⟩, rfl, rfl⟩
      | replying id updates result => exact loop_sends handling

/-- A message that is handled leaves the others in the inbox. -/
theorem handle_leaves (served : Served) (c : AcpConnection) (message : ClientMessage) :
    (c.handle served message).inbox = c.inbox ∧ (c.handle served message).arrived = c.arrived := by
  cases message with
  | request id request =>
      cases request with
      | setSessionConfigOption sessionId configId value =>
          simp only [AcpConnection.handle, AcpConnection.handleRequest]
          split
          · exact ⟨rfl, rfl⟩
          · cases value <;> exact ⟨rfl, rfl⟩
      | initializeRequest | newSession | prompt | listSessions | loadSession
      | setSessionMode | other =>
          exact ⟨rfl, rfl⟩
  | cancel | notification => exact ⟨rfl, rfl⟩
  | response number answer =>
      rw [AcpConnection.handle, AcpConnection.handleResponse]
      split <;> exact ⟨rfl, rfl⟩

/-- The event loop gets done with all that arrived, whatever the turns do. -/
theorem loop_drains (returns : ∀ call, (finish served call (runtime call)).isSome)
    {inbox : List ClientMessage} (waiting : c.inbox = inbox) :
    ∃ d, LoopRuns served runtime c d ∧ d.handling = none ∧ d.inbox = [] := by
  induction inbox generalizing c with
  | nil =>
      obtain ⟨d, run, idle, same⟩ := loop_settles returns c
      exact ⟨d, run, idle, same.trans waiting⟩
  | cons message rest ih =>
      obtain ⟨d, run, idle, same⟩ := loop_settles returns c
      have stepped :
          d.step served .take = some ({ d with inbox := rest }.handle served message) := by
        rw [AcpConnection.step, AcpConnection.take, idle, same, waiting]
      obtain ⟨inbox, arrived⟩ := handle_leaves served { d with inbox := rest } message
      obtain ⟨e, later, ends⟩ := ih inbox
      exact ⟨e, run.trans (.step stepped trivial arrived later), ends⟩

theorem accounted_initial : AcpConnection.initial.Accounted := by
  refine ⟨.refl _, ?_, ?_⟩
  · rintro _ _ _ ⟨⟩
  · rintro _ _ ⟨⟩

theorem accounted_reachable (reached : (acpMachine served).Reachable c) : c.Accounted :=
  reached.invariant (fun _ started => started ▸ accounted_initial)
    fun _ _ _ before _ stepped => accounted_kept before (step_moves stepped)

/-- Each request of the client is answered once or waits. No turn keeps the event loop from its
messages: alone it gets done with all of them, and then only prompts wait whose turns run. -/
theorem requests_answered_once (reached : (acpMachine served).Reachable c)
    (returns : ∀ call, (finish served call (runtime call)).isSome) :
    (requestIds c.arrived).Perm (respondedIds c.wire ++ c.pending) ∧
      ∃ d, (acpMachine served).Runs (AcpAction.OfLoop runtime) c d ∧ d.arrived = c.arrived ∧
        d.inbox = [] ∧
        (requestIds c.arrived).Perm (respondedIds d.wire ++ d.runningRequests) := by
  refine ⟨(accounted_reachable reached).requests, ?_⟩
  obtain ⟨d, ⟨run, arrived⟩, idle, empty⟩ := loop_drains returns rfl
  have after : d.Accounted :=
    run.preserves (accounted_reachable reached) fun _ _ _ before _ stepped =>
      accounted_kept before (step_moves stepped)
  have pending : d.pending = d.runningRequests := by
    rw [AcpConnection.pending, AcpConnection.handledRequest, idle, empty]
    exact List.append_nil _
  exact ⟨d, run, arrived, empty, arrived ▸ pending ▸ after.requests⟩

theorem noProviders_sorted :
    (([] : List (String × ProviderConfig)).map Prod.fst).Pairwise (· < ·) := .nil

/-- A server of a project that has no providers. -/
def sampleServed : Served :=
  ⟨⟨fun text => if text = "{}" then some (.object []) else none, fun _ => "{}"⟩, .system [],
    ⟨"local", 10, [], noProviders_sorted⟩, "small", [], "/w", fun _ => "failed"⟩

/-- A runtime whose calls succeed. -/
def sampleRuntime : StateCall → StateResult
  | .newSession _ _ _ => .created (.ok "new")
  | .listSessions _ => .listed (.ok [])
  | .loadSession _ _ => .loaded (.ok ⟨.code, [.ofUser "Hi."], "local", "small", some "Moved."⟩)
  | .setSessionModel _ _ | .setSessionMode _ _ => .changed (.ok ())

theorem sampleRuntime_returns (call : StateCall) :
    (finish sampleServed call (sampleRuntime call)).isSome := by
  cases call <;> rfl

/-- A command that a turn wants to run. -/
def sampleQuestion : Question := .permission ⟨"call", "execute_command", "{}", none⟩

/-- A turn waits for the client, and a session is half loaded, while more messages come in. -/
def sampleTraffic : List AcpAction :=
  [.arrive (.request (.number 0) (.initializeRequest 1 ⟨true, false⟩)), .take, .sendReply,
    .arrive (.request (.number 1) (.prompt "s" [.text "Run it."])), .take,
    .event 0 (.llmResponse "I"), .ask 0 sampleQuestion,
    .arrive (.request (.number 2) (.loadSession "t" "/")),
    .arrive (.request (.text "three") (.prompt "t" [.audio])),
    .arrive (.response 0 (.selected "allow_once")),
    .arrive (.request (.number 4) (.listSessions none)), .take,
    .returns (sampleRuntime (.loadSession "t" "/")), .sendReply]

/-- The rest of the session is shown, the second prompt is taken up, and the sessions are listed. -/
theorem requests_answered_sample :
    ∃ c, (acpMachine sampleServed).exec .initial sampleTraffic = some c ∧
    [.number 0, .number 1, .number 2, .text "three", .number 4].Perm
      ([RequestId.number 0] ++ [.number 2, .number 1, .text "three", .number 4]) ∧
    ∃ d, (acpMachine sampleServed).Runs (AcpAction.OfLoop sampleRuntime) c d ∧ d.inbox = [] ∧
      [.number 0, .number 1, .number 2, .text "three", .number 4].Perm
      (respondedIds d.wire ++ d.runningRequests) := by
  obtain ⟨c, executed⟩ : ∃ c, (acpMachine sampleServed).exec .initial sampleTraffic =
    some c := ⟨_, rfl⟩
  obtain ⟨waits, d, run, -, empty, answered⟩ :=
    requests_answered_once (Machine.reachable_of_exec rfl executed) sampleRuntime_returns
  refine ⟨c, executed, ?_, d, run, empty, ?_⟩
  · cases executed
    exact waits
  · cases executed
    exact answered

end EventLoop

end Openheim.Acp
