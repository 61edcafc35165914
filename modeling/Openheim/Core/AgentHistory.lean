import Mathlib.Data.List.Perm.Basic
import Openheim.Core.Agent

namespace Openheim

/-- The message that an event says was appended. -/
def appendedMessage : StreamEvent → Option Message
  | .messageAppended message => some message
  | _ => none

/-- The events that start or end a tool call. -/
def isToolEvent : StreamEvent → Bool
  | .toolCall _ _ _ | .toolResult _ _ _ _ => true
  | _ => false

/-- The event that matches a stored tool message. -/
def resultEvent (message : Message) : Option StreamEvent :=
  message.toolResultBlock.map fun block =>
    .toolResult block.toolCallId block.toolName block.content block.isError

/-- A tool message answers a call when it holds one result with the id and the name of the call. -/
def Answers (call : ToolUseBlock) (message : Message) : Prop :=
  ∃ content isError, message = .toolResult call.id call.name content isError

/-- One reply, the results recorded for its calls, and their result events
in the order of completion. -/
structure Round where
  reply : Message
  results : List Message
  announced : List StreamEvent

namespace Round

/-- The reply comes first and its results follow it. -/
def messages (round : Round) : List Message := round.reply :: round.results

/-- All calls of the reply are announced before the first result. -/
def toolEvents (round : Round) : List StreamEvent :=
  round.reply.toolCalls.map AgentRun.announceCall ++ round.announced

/-- Each call has one stored result, in the order of the calls, and one
result event that equals it. -/
structure WellFormed (round : Round) : Prop where
  assistant : round.reply.role = .assistant
  answered : List.Forall₂ Answers round.reply.toolCalls round.results
  announced : round.announced.Perm (round.results.filterMap resultEvent)

end Round

/-- The calls of the reply in progress, and their outcomes so far. -/
def Phase.openRound : Phase → Option (Reply × List (Option (String × Bool)))
  | .announced _ choice => some (choice, choice.message.toolCalls.map fun _ => none)
  | .deciding _ choice decisions => some (choice, decisions.map fun _ => none)
  | .executing _ choice _ progress => some (choice, progress.map Progress.outcome)
  | _ => none

namespace AgentRun

/-- The messages and the events of a run are its rounds, and then what
the round in progress added. -/
structure Holds (initial : List Message) (run : AgentRun) (rounds : List Round)
    (openMessages : List Message) (openEvents : List StreamEvent) : Prop where
  wellFormed : ∀ round ∈ rounds, round.WellFormed
  messages : run.messages = initial ++ (rounds.flatMap Round.messages ++ openMessages)
  appended : run.events.filterMap appendedMessage = rounds.flatMap Round.messages ++ openMessages
  toolEvents : run.events.filter isToolEvent = rounds.flatMap Round.toolEvents ++ openEvents

/-- No round is in progress. -/
def Closed (initial : List Message) (run : AgentRun) : Prop :=
  ∃ rounds, run.Holds initial rounds [] []

/-- A call with an outcome has been announced with it. -/
def outcomeEvent : ToolUseBlock × Option (String × Bool) → Option StreamEvent
  | (call, some (result, isError)) => some (announceResult call result isError)
  | (_, none) => none

/-- A call without an outcome is announced when it is recorded. -/
def cancelledEvent : ToolUseBlock × Option (String × Bool) → Option StreamEvent
  | (_, some _) => none
  | (call, none) => some (announceResult call cancelledToolResult true)

/-- What the history keeps for a call: its outcome, or that it was cancelled. -/
def recordedResult : ToolUseBlock × Option (String × Bool) → Message
  | (call, some (result, isError)) => .toolResult call.id call.name result isError
  | (call, none) => .toolResult call.id call.name cancelledToolResult true

/-- The reply is recorded, its calls are announced, and so is every outcome. -/
def Opened (initial : List Message) (run : AgentRun) (choice : Reply)
    (outcomes : List (Option (String × Bool))) :
    Prop :=
  outcomes.length = choice.message.toolCalls.length ∧
    ∃ rounds announced,
      announced.Perm ((choice.message.toolCalls.zip outcomes).filterMap outcomeEvent) ∧
      run.Holds initial rounds [choice.message]
        (choice.message.toolCalls.map announceCall ++ announced)

/-- The loop invariant: outside the tool execution every round is complete. -/
def HistoryInvariant (initial : List Message) (run : AgentRun) : Prop :=
  match run.phase.openRound with
  | some (choice, outcomes) => run.Opened initial choice outcomes
  | none => run.Closed initial

/-- Events about the loop itself. -/
def isQuiet : StreamEvent → Bool
  | .iterationStart _ | .usage _ | .contextTrimmed _ | .finished _ _ => true
  | _ => false

/-- What a call adds to the events when it is recorded; one that was
cancelled is announced first. -/
def recordEvents : ToolUseBlock × Option (String × Bool) → List StreamEvent
  | (call, some (result, isError)) =>
      [.messageAppended (.toolResult call.id call.name result isError)]
  | (call, none) => [announceResult call cancelledToolResult true,
      .messageAppended (.toolResult call.id call.name cancelledToolResult true)]

/-- A request is being answered, or its failure has ended the loop. -/
def isStreaming : Phase → Bool
  | .sending _ _ _ | .returned (.error _) => true
  | _ => false

/-- A run goes on to another one with more events and messages. -/
structure Adds (run after : AgentRun) (events : List StreamEvent)
    (messages : List Message) : Prop where
  events : after.events = run.events ++ events
  messages : after.messages = run.messages ++ messages

/-- What a step does to the round in progress, and what it adds to the events and the messages. -/
inductive RoundStep (action : AgentAction) (run after : AgentRun) : Prop where
  | quiet (extra : List StreamEvent) (adds : Adds run after extra [])
      (silent : ∀ event ∈ extra, isQuiet event)
      (same : after.phase.openRound = run.phase.openRound)
      (stays : action ≠ .observeCancel → isStreaming run.phase → isStreaming after.phase)
  | chunk (chunk : LlmChunk) (adds : Adds run after [forwardChunk chunk] [])
      (same : after.phase = run.phase)
      (outside : run.phase.openRound = none) (streams : isStreaming run.phase)
  | reply (choice : Reply) (first last : List StreamEvent)
      (adds : Adds run after
        (.messageAppended choice.message :: first ++ choice.message.toolCalls.map announceCall ++
          last) [choice.message])
      (silent : ∀ event ∈ first ++ last, isQuiet event) (outside : run.phase.openRound = none)
      (next : after.phase.openRound = if choice.message.toolCalls = [] then none
        else some (choice, choice.message.toolCalls.map fun _ => none))
      (stopped : isStreaming after.phase = false)
  | settle (choice : Reply) (outcomes : List (Option (String × Bool))) (index : Nat)
      (call : ToolUseBlock)
      (result : String) (isError : Bool)
      (adds : Adds run after [announceResult call result isError] [])
      (inside : run.phase.openRound = some (choice, outcomes))
      (called : choice.message.toolCalls[index]? = some call)
      (unsettled : outcomes[index]? = some none)
      (next : after.phase.openRound = some (choice, outcomes.set index (some (result, isError))))
  | leave (choice : Reply) (outcomes : List (Option (String × Bool)))
      (adds : Adds run after ((choice.message.toolCalls.zip outcomes).flatMap recordEvents)
        ((choice.message.toolCalls.zip outcomes).map recordedResult))
      (inside : run.phase.openRound = some (choice, outcomes)) (next : after.phase.openRound = none)
      (stopped : isStreaming after.phase = false)

section Lists
variable {α β : Type*}

/-- Replacing an element without a value by one with a value adds that value. -/
theorem filterMap_set_perm {list : List α} {index : Nat} {old new : α} {value : β}
    {f : α → Option β}
    (found : list[index]? = some old) (nothing : f old = none) (something : f new = some value) :
    ((list.set index new).filterMap f).Perm (list.filterMap f ++ [value]) := by
  induction list generalizing index with
  | nil => simp at found
  | cons head rest ih =>
      cases index with
      | zero =>
          obtain rfl : head = old := by simpa using found
          simpa [nothing, something] using
            (List.perm_append_singleton value (rest.filterMap f)).symm
      | succ index =>
          have tail := ih (by simpa using found)
          cases kept : f head with
          | none => simpa [kept] using tail
          | some first => simpa [kept] using tail.cons first

/-- Changing one entry of a list changes the pair it is in. -/
theorem zip_set {first : List α} {second : List β} {index : Nat} {a : α} {b : β}
    (found : first[index]? = some a) :
    first.zip (second.set index b) = (first.zip second).set index (a, b) := by
  induction first generalizing second index with
  | nil => simp at found
  | cons head rest ih =>
      cases second with
      | nil => simp
      | cons other others =>
          cases index with
          | zero => simpa using found
          | succ index => simpa using ih (by simpa using found)

theorem set_same {list : List α} {index : Nat} {a : α} (found : list[index]? = some a) :
    list.set index a = list := by
  obtain ⟨bound, rfl⟩ := List.getElem?_eq_some_iff.mp found
  exact List.set_getElem_self bound

end Lists

section Adds
variable {run middle after : AgentRun} {json : SerdeJson}

/-- A step that changes neither events nor messages adds nothing. -/
theorem Adds.of_same (events : after.events = run.events)
    (messages : after.messages = run.messages) :
    Adds run after [] [] := ⟨by rw [events, List.append_nil], by rw [messages, List.append_nil]⟩

/-- What two steps add is added one after the other. -/
theorem Adds.trans {events more : List StreamEvent} {messages others : List Message}
    (first : Adds run middle events messages) (second : Adds middle after more others) :
    Adds run after (events ++ more) (messages ++ others) :=
  ⟨by rw [second.events, first.events, List.append_assoc],
    by rw [second.messages, first.messages, List.append_assoc]⟩

/-- Locals that are not recorded may change at the end. -/
theorem Adds.to {events more : List StreamEvent} {messages : List Message}
    (first : Adds run middle events messages)
    (added : after.events = middle.events ++ more) (same : after.messages = middle.messages) :
    Adds run after (events ++ more) messages :=
  ⟨by rw [added, first.events, List.append_assoc], by rw [same, first.messages]⟩

/-- Emitting adds the events and no message. -/
theorem adds_emit (run : AgentRun) (events : List StreamEvent) :
    Adds run (run.emit events) events [] :=
  ⟨rfl, (List.append_nil _).symm⟩

/-- Appending adds the message and the event about it. -/
theorem adds_append (run : AgentRun) (message : Message) :
    Adds run (run.append message) [.messageAppended message] [message] := ⟨rfl, rfl⟩

/-- Finishing adds the event about the end. -/
theorem adds_finish (run : AgentRun) (stopReason : StopReason) :
    Adds run (run.finish stopReason) [.finished run.finalResponse run.iterationsUsed] [] :=
  ⟨rfl, (List.append_nil _).symm⟩

/-- Reporting the usage adds only quiet events. -/
theorem adds_reportUsage (run : AgentRun) (usage : Option Usage) :
    ∃ extra, Adds run (run.reportUsage usage) extra [] ∧ ∀ event ∈ extra, isQuiet event := by
  cases usage with
  | none => exact ⟨[], .of_same rfl rfl, by simp⟩
  | some usage => exact ⟨[.usage usage], ⟨rfl, (List.append_nil _).symm⟩, by simp [isQuiet]⟩

/-- The calls are recorded in their order. -/
theorem adds_record (run : AgentRun) (calls : List (ToolUseBlock × Option (String × Bool))) :
    Adds run (run.record calls) (calls.flatMap recordEvents) (calls.map recordedResult) := by
  induction calls generalizing run with
  | nil => exact .of_same rfl rfl
  | cons entry rest ih =>
      obtain ⟨call, outcome⟩ := entry
      cases outcome with
      | some outcome => exact (adds_append run _).trans (ih _)
      | none => exact ((adds_emit run _).trans (adds_append _ _)).trans (ih _)

/-- Leaving the calls closes the round. -/
theorem roundStep_leaveCalls {action : AgentAction} {choice : Reply}
    {outcomes : List (Option (String × Bool))}
    (inside : run.phase.openRound = some (choice, outcomes)) (iteration : Nat) :
    RoundStep action run (run.leaveCalls iteration choice outcomes) :=
  have recorded := adds_record run (choice.message.toolCalls.zip outcomes)
  .leave choice outcomes ⟨recorded.events, recorded.messages⟩ inside rfl rfl

/-- A request is sent, perhaps with a report. -/
theorem adds_send (run : AgentRun) (iteration overflowRetries : Nat) :
    ∃ extra, Adds run (run.send iteration overflowRetries) extra
      [] ∧ (∀ event ∈ extra, isQuiet event) ∧
      (run.send iteration overflowRetries).phase.openRound = none ∧
      isStreaming (run.send iteration overflowRetries).phase := by
  unfold AgentRun.send
  dsimp only
  split
  · exact ⟨[.contextTrimmed _], ⟨rfl, (List.append_nil _).symm⟩, by simp [isQuiet], rfl, rfl⟩
  · exact ⟨[], .of_same rfl rfl, by simp, rfl, rfl⟩

/-- A failed request stays outside of a round. -/
theorem roundStep_reject {action : AgentAction} (outside : run.phase.openRound = none)
    (iteration overflowRetries : Nat) (request : Request) (error : Error) :
    RoundStep action run (run.reject iteration overflowRetries request error) := by
  have failed : ∀ error, RoundStep action run (run.enter (.returned (.error error))) := fun error =>
    .quiet [] (.of_same rfl rfl) (by simp) outside.symm fun _ _ => rfl
  unfold AgentRun.reject
  split
  · split
    · exact failed _
    · split
      · exact failed _
      · next fitter _ =>
        obtain ⟨extra, adds, silent, sent, streams⟩ :=
          adds_send { run with fitter } iteration (overflowRetries + 1)
        exact .quiet extra ⟨adds.events, adds.messages⟩ silent (sent.trans outside.symm) fun _ _ =>
          streams
  · exact failed _

/-- A reply with calls opens a round, and another one stays outside. -/
theorem roundStep_accept {action : AgentAction} (outside : run.phase.openRound = none)
    (iteration : Nat)
    (request : Request) (choice : Reply) :
    RoundStep action run (run.accept iteration request choice) := by
  let fitter := choice.usage.elim run.fitter (run.fitter.recordUsage request.bytes)
  let middle := ({ run with fitter }.append choice.message).reportUsage choice.usage
  obtain ⟨first, reported, quiet⟩ :=
    adds_reportUsage ({ run with fitter }.append choice.message) choice.usage
  have calibrated : Adds run { run with fitter } [] [] := .of_same rfl rfl
  have appended : Adds run middle (.messageAppended choice.message :: first) [choice.message] :=
    (calibrated.trans (adds_append _ choice.message)).trans reported
  unfold AgentRun.accept
  dsimp only
  split
  · next noCalls =>
    have none := List.isEmpty_iff.mp noCalls
    have silent : choice.message.toolCalls.map announceCall = [] := by rw [none]; rfl
    split
    · refine .reply choice first [] ?_ (by simpa using quiet) outside (by rw [if_pos none]; rfl) rfl
      rw [silent, List.append_nil]
      exact appended.to (List.append_nil _).symm rfl
    · refine .reply choice first [.finished (choice.message.text.getD middle.finalResponse)
        middle.iterationsUsed] ?_ ?_
        outside (by rw [if_pos none]; rfl) rfl
      · rw [silent, List.append_nil]
        exact appended.to rfl rfl
      · simpa [or_imp, forall_and, isQuiet] using quiet
  · next calls =>
    refine .reply choice first [] ?_ (by simpa using quiet) outside ?_ rfl
    · rw [List.append_nil]
      exact appended.to rfl rfl
    · rw [if_neg fun none => calls (List.isEmpty_iff.mpr none)]
      rfl

/-- What the loop does by itself, seen by its rounds. -/
theorem roundStep_proceed (stepped : run.proceed json = some after) :
    RoundStep .proceed run after := by
  unfold AgentRun.proceed at stepped
  split at stepped
  · next iteration phase =>
    have outside : run.phase.openRound = none := by rw [phase]; rfl
    have ends : ∀ reason, RoundStep .proceed run (run.finish reason) := fun reason =>
      .quiet _ (adds_finish run reason) (by simp [isQuiet]) outside.symm
        (by simp [phase, isStreaming])
    split at stepped
    · cases stepped
      exact ends _
    · split at stepped
      · cases stepped
        exact ends _
      · cases stepped
        obtain ⟨extra, adds, silent, sent, streams⟩ :=
          adds_send ({ run with iterationsUsed := iteration + 1 }.emit
            [.iterationStart (iteration + 1)]) iteration 0
        have started :
          Adds run ({ run with iterationsUsed := iteration + 1 }.emit
            [.iterationStart (iteration + 1)])
          [.iterationStart (iteration + 1)] [] := ⟨rfl, (List.append_nil _).symm⟩
        exact .quiet _ (started.trans adds) (by simpa [isQuiet] using silent)
          (sent.trans outside.symm)
          fun _ _ => streams
  · next iteration choice phase =>
    have inside : run.phase.openRound = some (choice, choice.message.toolCalls.map fun _ =>
      none) := by rw [phase]; rfl
    split at stepped
    · cases stepped
      exact roundStep_leaveCalls inside iteration
    · cases stepped
      refine .quiet [] (.of_same rfl rfl) (by simp) ?_ (by simp [phase, isStreaming])
      rw [inside]
      simp [AgentRun.enter, Phase.openRound, Function.comp_def]
  · next iteration choice decisions phase =>
    split at stepped
    · cases stepped
    · cases stepped
      refine .quiet [] (.of_same rfl rfl) (by simp) ?_ (by simp [phase, isStreaming])
      simp [AgentRun.enter, phase, Phase.openRound, Progress.outcome]
  · next iteration choice decisions progress phase =>
    split at stepped
    · cases stepped
      exact roundStep_leaveCalls (by rw [phase]; rfl) iteration
    · cases stepped
  · next iteration phase =>
    have outside : run.phase.openRound = none := by rw [phase]; rfl
    split at stepped
    · cases stepped
      exact .quiet _ (adds_finish run _) (by simp [isQuiet]) outside.symm
        (by simp [phase, isStreaming])
    · cases stepped
      exact .quiet [] (.of_same rfl rfl) (by simp) outside.symm (by simp [phase, isStreaming])
  · cases stepped

/-- Looking at the token, seen by the rounds. -/
theorem roundStep_observeCancel (stepped : run.observeCancel = some after) :
    RoundStep .observeCancel run after := by
  unfold AgentRun.observeCancel at stepped
  split at stepped
  · split at stepped
    · next phase =>
      cases stepped
      exact .quiet _ (adds_finish run _) (by simp [isQuiet]) (by rw [phase]; rfl) fun other =>
        absurd rfl other
    · next iteration choice decisions phase =>
      cases stepped
      exact roundStep_leaveCalls (by rw [phase]; rfl) iteration
    · next iteration choice decisions progress phase =>
      cases stepped
      exact roundStep_leaveCalls (by rw [phase]; rfl) iteration
    · cases stepped
  · cases stepped

/-- A call that finishes is announced, and the outcomes of the other calls stay. -/
theorem roundStep_settle {action : AgentAction} {choice : Reply} {decisions : List Decision}
    {progress : List Progress} {index iteration : Nat} {call : ToolUseBlock} {old : Progress}
    (phase : run.phase = .executing iteration choice decisions progress)
    (called : choice.message.toolCalls[index]? = some call) (reached : progress[index]? = some old)
    (unfinished : old.outcome = none) (result : String) (isError : Bool) :
    RoundStep action run (run.settle iteration choice decisions progress index call result
        isError) := by
  refine .settle choice (progress.map Progress.outcome) index call (capToolResult result) isError
    ⟨rfl, (List.append_nil _).symm⟩ (by rw [phase]; rfl) called (by simp [reached, unfinished]) ?_
  simp [AgentRun.settle, AgentRun.enter, Phase.openRound, List.map_set, Progress.outcome]

/-- A call that completes, seen by the rounds. -/
theorem roundStep_complete {index : Nat} {result : Except String String}
    (stepped : run.complete index result = some after) :
    RoundStep (.complete index result) run after := by
  unfold AgentRun.complete at stepped
  split at stepped
  · next phase =>
    split at stepped
    · next called _ reached =>
      obtain ⟨text, _, rfl⟩ := Option.map_eq_some_iff.mp stepped
      exact roundStep_settle phase called reached rfl _ _
    · next called _ reached =>
      split at stepped
      · cases stepped
        exact roundStep_settle phase called reached rfl _ _
      · cases stepped
        exact roundStep_settle phase called reached rfl _ _
    · cases stepped
  · cases stepped

/-- This is all that a step can do to the rounds. -/
theorem step_round {action : AgentAction} (stepped : run.step json action = some after) :
    RoundStep action run after := by
  cases action with
  | cancel =>
      cases stepped
      exact .quiet [] (.of_same rfl rfl) (by simp) rfl fun _ streams => streams
  | proceed => exact roundStep_proceed stepped
  | chunk chunk =>
      simp only [AgentRun.step] at stepped
      split at stepped
      · next phase =>
        cases stepped
        exact .chunk chunk ⟨rfl, (List.append_nil _).symm⟩ rfl (by rw [phase]; rfl)
          (by rw [phase]; rfl)
      · cases stepped
  | reply reply =>
      simp only [AgentRun.step] at stepped
      split at stepped
      · next phase =>
        cases stepped
        exact roundStep_accept (by rw [phase]; rfl) _ _ _
      · next phase =>
        cases stepped
        exact roundStep_reject (by rw [phase]; rfl) _ _ _ _
      · cases stepped
  | decide index decision =>
      simp only [AgentRun.step, AgentRun.decide] at stepped
      split at stepped
      · next phase =>
        split at stepped
        · cases stepped
          refine .quiet [] (.of_same rfl rfl) (by simp) ?_ (by simp [phase, isStreaming])
          simp [AgentRun.enter, phase, Phase.openRound]
        · cases stepped
      · cases stepped
  | execute index =>
      simp only [AgentRun.step, AgentRun.execute] at stepped
      split at stepped
      · next iteration choice decisions progress phase =>
        split at stepped
        · next decided reached =>
          split at stepped
          · cases stepped
            refine .quiet [] (.of_same rfl rfl) (by simp) ?_ (by simp [phase, isStreaming])
            have kept : (progress.map Progress.outcome).set index none =
                progress.map Progress.outcome :=
              set_same (by simp [reached, Progress.outcome])
            simp [AgentRun.enter, phase, Phase.openRound, List.map_set, Progress.outcome, kept]
          · cases stepped
        · cases stepped
      · cases stepped
  | complete index result => exact roundStep_complete stepped
  | observeCancel => exact roundStep_observeCancel stepped

end Adds

section Steps
variable {initial openMessages messages : List Message} {openEvents events : List StreamEvent}
  {rounds : List Round}
  {run after : AgentRun}

/-- What is added extends the round in progress. -/
theorem Holds.add (holds : run.Holds initial rounds openMessages openEvents)
    (adds : Adds run after events messages)
    (appended : events.filterMap appendedMessage = messages) :
    after.Holds initial rounds (openMessages ++ messages)
      (openEvents ++ events.filter isToolEvent) where
  wellFormed := holds.wellFormed
  messages := by simp [adds.messages, holds.messages]
  appended := by simp [adds.events, holds.appended, appended]
  toolEvents := by simp [adds.events, holds.toolEvents]

/-- Events about neither messages nor tool calls change nothing that is recorded. -/
theorem Holds.silent (holds : run.Holds initial rounds openMessages openEvents)
    (adds : Adds run after events [])
    (silent : events.filterMap appendedMessage = []) (other : events.filter isToolEvent = []) :
    after.Holds initial rounds openMessages openEvents := by
  have kept := holds.add adds silent
  rwa [other, List.append_nil, List.append_nil] at kept

/-- A complete round joins the rounds before it. -/
theorem Holds.close (holds : run.Holds initial rounds openMessages openEvents) {round : Round}
    (wellFormed : round.WellFormed) (messages : openMessages = round.messages)
    (events : openEvents = round.toolEvents) :
    run.Holds initial (rounds ++ [round]) [] [] where
  wellFormed other member := by
    rcases List.mem_append.mp member with old | new
    · exact holds.wellFormed other old
    · rw [List.mem_singleton.mp new]
      exact wellFormed
  messages := by simp [holds.messages, messages]
  appended := by simp [holds.appended, messages]
  toolEvents := by simp [holds.toolEvents, events]

/-- A quiet event tells neither of a message nor of a call. -/
theorem isQuiet_silent {event : StreamEvent} (quiet : isQuiet event) :
    appendedMessage event = none ∧ isToolEvent event = false := by
  cases event with
  | iterationStart | usage | contextTrimmed | finished => exact ⟨rfl, rfl⟩
  | _ => simp [isQuiet] at quiet

/-- Quiet events tell of no message. -/
theorem appended_quiet (quiet : ∀ event ∈ events, isQuiet event) :
    events.filterMap appendedMessage = [] :=
  List.filterMap_eq_nil_iff.mpr fun event member => (isQuiet_silent (quiet event member)).1

/-- Quiet events tell of no call. -/
theorem toolEvents_quiet (quiet : ∀ event ∈ events, isQuiet event) :
    events.filter isToolEvent = [] :=
  List.filter_eq_nil_iff.mpr fun event member => by simp [(isQuiet_silent (quiet event member)).2]

/-- Announcements tell of their calls and of nothing else. -/
theorem toolEvents_announced (calls : List ToolUseBlock) :
    (calls.map announceCall).filter isToolEvent = calls.map announceCall := by
  simp [announceCall, isToolEvent]

/-- Recording calls appends the message of each result. -/
theorem appended_recorded (calls : List (ToolUseBlock × Option (String × Bool))) :
    (calls.flatMap recordEvents).filterMap appendedMessage = calls.map recordedResult := by
  induction calls with
  | nil => rfl
  | cons entry calls ih =>
      obtain ⟨call, outcome⟩ := entry
      rw [List.flatMap_cons, List.filterMap_append, ih]
      cases outcome with
      | none => rfl
      | some outcome => rfl

/-- Recording calls tells of those that were cancelled. -/
theorem toolEvents_recorded (calls : List (ToolUseBlock × Option (String × Bool))) :
    (calls.flatMap recordEvents).filter isToolEvent = calls.filterMap cancelledEvent := by
  induction calls with
  | nil => rfl
  | cons entry calls ih =>
      obtain ⟨call, outcome⟩ := entry
      rw [List.flatMap_cons, List.filter_append, ih]
      cases outcome with
      | none => rfl
      | some outcome => rfl

/-- Outside of a round, a closed history is all there is to know. -/
theorem HistoryInvariant.of_closed (closed : run.Closed initial)
    (outside : run.phase.openRound = none) :
    run.HistoryInvariant initial := by
  rw [HistoryInvariant, outside]
  exact closed

/-- Outside of a round the history is closed. -/
theorem HistoryInvariant.closed (invariant : run.HistoryInvariant initial)
    (outside : run.phase.openRound = none) :
    run.Closed initial := by
  rw [HistoryInvariant, outside] at invariant
  exact invariant

/-- Inside of a round its calls are announced, and answered as far as they are settled. -/
theorem HistoryInvariant.opened {choice : Reply} {outcomes : List (Option (String × Bool))}
    (invariant : run.HistoryInvariant initial)
    (inside : run.phase.openRound = some (choice, outcomes)) :
    run.Opened initial choice outcomes := by
  rw [HistoryInvariant, inside] at invariant
  exact invariant

/-- Nothing is announced while no call has an outcome. -/
theorem outcomeEvent_unsettled (calls : List ToolUseBlock) :
    (calls.zip (calls.map fun _ => none)).filterMap outcomeEvent = [] := by
  induction calls with
  | nil => rfl
  | cons call calls ih => simpa [List.filterMap_cons, outcomeEvent] using ih

/-- One more outcome is announced. -/
theorem outcomeEvent_settled {calls : List ToolUseBlock} {outcomes : List (Option (String × Bool))}
    {index : Nat}
    {call : ToolUseBlock} (called : calls[index]? = some call)
    (unsettled : outcomes[index]? = some none) (result : String) (isError : Bool) :
    ((calls.zip (outcomes.set index (some (result, isError)))).filterMap outcomeEvent).Perm
      ((calls.zip outcomes).filterMap outcomeEvent ++ [announceResult call result isError]) := by
  have pair : (calls.zip outcomes)[index]? = some (call, none) := by
    simp [List.getElem?_zip_eq_some, called, unsettled]
  rw [zip_set called]
  exact @filterMap_set_perm _ _ _ _ _ (call, some (result, isError)) _ outcomeEvent pair rfl rfl

/-- The result events of the finished and of the cancelled calls are
those of the recorded results. -/
theorem recordedEvents_perm (calls : List (ToolUseBlock × Option (String × Bool))) :
    (calls.filterMap outcomeEvent ++ calls.filterMap cancelledEvent).Perm
      ((calls.map recordedResult).filterMap resultEvent) := by
  induction calls with
  | nil => simp
  | cons call rest ih =>
      obtain ⟨call, outcome⟩ := call
      cases outcome with
      | some outcome =>
          have kept := ih.cons (announceResult call outcome.1 outcome.2)
          simpa [List.filterMap_cons, outcomeEvent, cancelledEvent, recordedResult, resultEvent,
            announceResult] using kept
      | none =>
          have moved :=
            List.perm_middle.trans (ih.cons (announceResult call cancelledToolResult true))
          simpa [List.filterMap_cons, outcomeEvent, cancelledEvent, recordedResult, resultEvent,
            announceResult] using moved

/-- Every call is answered in its place. -/
theorem answers_recorded {calls : List ToolUseBlock} {outcomes : List (Option (String × Bool))}
    (length : outcomes.length = calls.length) :
    List.Forall₂ Answers calls ((calls.zip outcomes).map recordedResult) := by
  induction calls generalizing outcomes with
  | nil => simp
  | cons call calls ih =>
      cases outcomes with
      | nil => simp at length
      | cons outcome outcomes =>
          have rest := ih (by simpa using length)
          cases outcome with
          | none => exact .cons ⟨_, _, rfl⟩ rest
          | some outcome => exact .cons ⟨_, _, rfl⟩ rest

/-- A round whose calls are recorded is complete, whatever their outcomes are. -/
theorem wellFormed_recorded {choice : Reply} {outcomes : List (Option (String × Bool))}
    {announced : List StreamEvent} (length : outcomes.length = choice.message.toolCalls.length)
    (same : announced.Perm ((choice.message.toolCalls.zip outcomes).filterMap outcomeEvent)) :
    (⟨choice.message, (choice.message.toolCalls.zip outcomes).map recordedResult,
      announced ++ (choice.message.toolCalls.zip outcomes).filterMap cancelledEvent⟩ :
        Round).WellFormed :=
  ⟨choice.fromAssistant, answers_recorded length,
    (same.append_right _).trans (recordedEvents_perm _)⟩

/-- A step without an event about a message or a call keeps what is known. -/
theorem HistoryInvariant.quiet (invariant : run.HistoryInvariant initial)
    (adds : Adds run after events [])
    (silent : events.filterMap appendedMessage = []) (other : events.filter isToolEvent = [])
    (same : after.phase.openRound = run.phase.openRound) : after.HistoryInvariant initial := by
  unfold HistoryInvariant at invariant ⊢
  rw [same]
  split at invariant
  · obtain ⟨length, rounds, announced, moved, holds⟩ := invariant
    exact ⟨length, rounds, announced, moved, holds.silent adds silent other⟩
  · obtain ⟨rounds, holds⟩ := invariant
    exact ⟨rounds, holds.silent adds silent other⟩

/-- The invariant speaks about the messages, the events and the phase only. -/
theorem HistoryInvariant.of_same (invariant : run.HistoryInvariant initial)
    (messages : after.messages = run.messages)
    (events : after.events = run.events) (same : after.phase.openRound = run.phase.openRound) :
    after.HistoryInvariant initial := invariant.quiet (.of_same events messages) rfl rfl same

/-- A reply without calls is a round by itself, and a reply with calls opens one. -/
theorem Closed.reply (closed : run.Closed initial) {choice : Reply} {first last : List StreamEvent}
    (adds : Adds run after
      (.messageAppended choice.message :: first ++ choice.message.toolCalls.map announceCall ++
          last) [choice.message])
    (silent : ∀ event ∈ first ++ last, isQuiet event)
    (next : after.phase.openRound = if choice.message.toolCalls = [] then none
      else some (choice, choice.message.toolCalls.map fun _ => none)) :
    after.HistoryInvariant initial := by
  obtain ⟨rounds, holds⟩ := closed
  have before : ∀ event ∈ first, isQuiet event := fun event member =>
    silent event (List.mem_append_left _ member)
  have behind : ∀ event ∈ last, isQuiet event := fun event member =>
    silent event (List.mem_append_right _ member)
  have replied := holds.add adds (by
    simp [appendedMessage, announceCall, appended_quiet before, appended_quiet behind])
  have events :
      (.messageAppended choice.message :: first ++ choice.message.toolCalls.map announceCall ++
        last).filter
      isToolEvent = choice.message.toolCalls.map announceCall := by
    simp [isToolEvent, toolEvents_quiet before, toolEvents_quiet behind, toolEvents_announced]
  rw [events] at replied
  split at next
  · next noCalls =>
    have single : (⟨choice.message, [], []⟩ : Round).WellFormed :=
      ⟨choice.fromAssistant, by simp [noCalls], .nil⟩
    exact .of_closed ⟨_, replied.close single rfl (by simp [Round.toolEvents])⟩ next
  · rw [HistoryInvariant, next]
    refine ⟨by simp, rounds, [], ?_, ?_⟩
    · rw [outcomeEvent_unsettled]
    · simpa using replied

/-- Every step of the loop keeps the invariant. -/
theorem HistoryInvariant.step {json : SerdeJson} {action : AgentAction}
    (invariant : run.HistoryInvariant initial)
    (stepped : run.step json action = some after) : after.HistoryInvariant initial := by
  cases step_round stepped with
  | quiet extra adds silent same =>
      exact invariant.quiet adds (appended_quiet silent) (toolEvents_quiet silent) same
  | chunk chunk adds same =>
      refine invariant.quiet adds ?_ ?_ (by rw [same])
      · cases chunk <;> rfl
      · cases chunk <;> rfl
  | reply choice first last adds silent outside next =>
    exact (invariant.closed outside).reply adds silent next
  | settle choice outcomes index call result isError adds inside called unsettled next =>
      obtain ⟨length, rounds, announced, same, holds⟩ := invariant.opened inside
      rw [HistoryInvariant, next]
      refine ⟨by simpa using length, rounds,
        announced ++ [announceResult call result isError], ?_, ?_⟩
      · exact (same.append_right _).trans
          (outcomeEvent_settled called unsettled result isError).symm
      · have told := holds.add adds rfl
        rwa [List.append_assoc] at told
  | leave choice outcomes adds inside next =>
      obtain ⟨length, rounds, announced, same, holds⟩ := invariant.opened inside
      have recorded := holds.add adds (appended_recorded _)
      rw [toolEvents_recorded] at recorded
      have whole :=
        recorded.close (wellFormed_recorded length same) rfl (by simp [Round.toolEvents])
      exact .of_closed ⟨_, whole⟩ next

end Steps

/-- Before the loop begins there is no round and no event. -/
theorem HistoryInvariant.start (config : AgentConfig) (promptBuilder : Option PromptBuilder)
    (toolsBytes : Nat) (messages : List Message) (cancelled : Bool) :
    (AgentRun.start config promptBuilder toolsBytes messages cancelled).HistoryInvariant messages :=
  .of_closed ⟨[], by simp, by simp [AgentRun.start], rfl, rfl⟩ rfl

/-- The invariant holds whenever the loop is seen. -/
theorem HistoryInvariant.of_reachable {json : SerdeJson} {messages : List Message} {run : AgentRun}
    (reached : (agentLoop json messages).Reachable run) : run.HistoryInvariant messages := by
  apply reached.invariant
  · rintro first ⟨config, promptBuilder, toolsBytes, cancelled, rfl⟩
    exact .start config promptBuilder toolsBytes messages cancelled
  · intro first action last before _ stepped
    exact before.step stepped

/-- The messages of a run are those it started with, and then those that its events announced. -/
theorem HistoryInvariant.messages_eq {initial : List Message} {run : AgentRun}
    (invariant : run.HistoryInvariant initial) :
    run.messages = initial ++ run.events.filterMap appendedMessage := by
  unfold HistoryInvariant at invariant
  split at invariant
  · obtain ⟨_, rounds, announced, _, holds⟩ := invariant
    rw [holds.messages, holds.appended]
  · obtain ⟨rounds, holds⟩ := invariant
    rw [holds.messages, holds.appended]

/-- When the loop returns, the earlier messages are as they were, and what it appended is
a list of rounds. The events about messages are these messages, and the events about
tools are those of the rounds. -/
theorem history_wellFormed {json : SerdeJson} {messages : List Message} {run : AgentRun}
    {result : Except Error AgentResult} (reached : (agentLoop json messages).Reachable run)
    (returned : run.phase = .returned result) :
    ∃ rounds : List Round, (∀ round ∈ rounds, round.WellFormed) ∧
      run.messages = messages ++ rounds.flatMap Round.messages ∧
      run.events.filterMap appendedMessage = rounds.flatMap Round.messages ∧
      run.events.filter isToolEvent = rounds.flatMap Round.toolEvents := by
  obtain ⟨rounds, holds⟩ := (HistoryInvariant.of_reachable reached).closed (by rw [returned]; rfl)
  exact ⟨rounds, holds.wellFormed, by simpa using holds.messages, by simpa using holds.appended,
    by simpa using holds.toolEvents⟩

/-- The JSON texts of the sample. -/
def sampleJson : SerdeJson :=
  ⟨fun text => if text = "{}" then some (.object []) else none, fun _ => "{}"⟩

def sampleConfig : AgentConfig :=
  ⟨"local", .openAiCompatible, "", "", "small", 5, 60, none, none, false, false⟩

/-- The model asks for a call that is allowed, one that is denied and
one with malformed arguments. -/
def sampleReply : Reply :=
  ⟨⟨⟨.assistant, [.toolUse "a" "list_dir" "{}" none, .toolUse "b" "write_file" "{}" none,
    .toolUse "b" "read_file" "cut off" none]⟩, some .toolCalls, none⟩, rfl⟩

/-- The calls finish out of order, and the turn is cancelled before the first one does. -/
def sampleActions : List AgentAction :=
  [.proceed, .reply (.ok sampleReply), .proceed, .decide 1 .rejectOnce, .decide 0 .allowOnce,
    .proceed, .execute 0, .complete 2 (.ok ""), .complete 1 (.ok ""), .cancel,
      .observeCancel, .proceed]

/-- The sample run stores three results, in the order of the calls. -/
theorem history_sample : ∃ run, (agentLoop sampleJson [.ofUser "list"]).exec
      (.start sampleConfig none 0 [.ofUser "list"] false) sampleActions = some run ∧
        run.messages.length = 5 ∧
    ∃ rounds : List Round, (∀ round ∈ rounds, round.WellFormed) ∧
      run.messages = [.ofUser "list"] ++ rounds.flatMap Round.messages ∧
      run.events.filterMap appendedMessage = rounds.flatMap Round.messages ∧
      run.events.filter isToolEvent = rounds.flatMap Round.toolEvents := by
  have executed : (agentLoop sampleJson [.ofUser "list"]).exec
    (.start sampleConfig none 0 [.ofUser "list"] false) sampleActions = some _ := rfl
  have started :
      (agentLoop sampleJson [.ofUser "list"]).start
      (.start sampleConfig none 0 [.ofUser "list"] false) :=
    ⟨sampleConfig, none, 0, false, rfl⟩
  exact ⟨_, executed, rfl, history_wellFormed (Machine.reachable_of_exec started executed) rfl⟩

end AgentRun

end Openheim
