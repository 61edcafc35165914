import Openheim.Acp.Replay

/-
This file shows that the live events of a turn come round by round: the chunks of a reply, the
reply, its calls and then their results.
-/

namespace Openheim.Acp
open AgentRun

/-- A round with the chunks that were streamed for its reply. -/
structure LiveRound extends Round where
  chunks : List LlmChunk

/-- The events that show something, and those that record a reply. -/
def isLive : StreamEvent → Bool
  | .llmResponse _ | .thinkingContent _ | .toolCall _ _ _ | .toolResult _ _ _ _ => true
  | .messageAppended message => message.role = .assistant
  | _ => false

namespace LiveRound

/-- The live events of a round in their order. -/
def events (round : LiveRound) : List StreamEvent :=
  round.chunks.map forwardChunk ++ (.messageAppended round.reply :: round.toolEvents)

end LiveRound

section Streamed
variable {chunks : List LlmChunk} {events : List StreamEvent}

/-- Events that are not live stream nothing and record no reply. -/
theorem splitStream_live (chunks : List LlmChunk) (events : List StreamEvent) :
    splitStream chunks (events.filter isLive) = splitStream chunks events := by
  induction events generalizing chunks with
  | nil => rfl
  | cons event events ih =>
      cases event with
      | messageAppended message =>
          by_cases assistant : message.role = .assistant
          · rw [List.filter_cons_of_pos (by simp [isLive, assistant]), splitStream, splitStream,
              if_pos assistant, if_pos assistant, ih]
          · rw [List.filter_cons_of_neg (by simp [isLive, assistant]), splitStream,
              if_neg assistant, ih]
      | _ => exact ih _

/-- Streamed chunks wait for the reply that they belong to. -/
theorem splitStream_chunks (before chunks : List LlmChunk) (rest : List StreamEvent) :
    splitStream before (chunks.map forwardChunk ++ rest) = splitStream (before ++ chunks) rest := by
  induction chunks generalizing before with
  | nil =>
      rw [List.append_nil]
      rfl
  | cons chunk chunks ih =>
      rw [List.append_cons, ← ih]
      cases chunk <;> rfl

/-- Events about calls do not split the stream. -/
theorem splitStream_tools (tools : ∀ event ∈ events, isToolEvent event) (rest : List StreamEvent) :
    splitStream chunks (events ++ rest) = splitStream chunks rest := by
  induction events with
  | nil => rfl
  | cons event events ih =>
      obtain ⟨first, others⟩ := List.forall_mem_cons.mp tools
      cases event with
      | toolCall | toolResult => exact ih others
      | _ => simp [isToolEvent] at first

/-- All that a round announces are tool events. -/
theorem toolEvents_tools {round : Round} (wellFormed : round.WellFormed) :
    ∀ event ∈ round.toolEvents, isToolEvent event := by
  intro event member
  rcases List.mem_append.mp member with call | result
  · obtain ⟨_, _, rfl⟩ := List.mem_map.mp call
    rfl
  · obtain ⟨message, _, told⟩ := List.mem_filterMap.mp (wellFormed.announced.mem_iff.mp result)
    obtain ⟨block, _, rfl⟩ := Option.map_eq_some_iff.mp told
    rfl

/-- Each round has streamed one reply. -/
theorem splitStream_rounds {rounds : List LiveRound}
    (wellFormed : ∀ round ∈ rounds, round.WellFormed)
    (pending : List LlmChunk) :
    splitStream [] (rounds.flatMap LiveRound.events ++ pending.map forwardChunk) =
      (rounds.map fun round => (round.chunks, round.reply), pending) := by
  induction rounds with
  | nil =>
      rw [List.flatMap_nil, List.nil_append, ← List.append_nil (pending.map forwardChunk),
        splitStream_chunks]
      rfl
  | cons round rounds ih =>
      obtain ⟨head, others⟩ := List.forall_mem_cons.mp wellFormed
      rw [List.flatMap_cons, LiveRound.events, List.append_assoc, List.append_assoc,
        splitStream_chunks, List.cons_append, splitStream, if_pos head.assistant,
          splitStream_tools (toolEvents_tools head), ih others]
      rfl

end Streamed

/-- The messages and the live events of a run are its rounds, and then what
the round in progress added. -/
structure Shows (initial : List Message) (run : AgentRun) (rounds : List LiveRound)
    (openMessages : List Message) (openEvents : List StreamEvent) : Prop where
  wellFormed : ∀ round ∈ rounds, round.WellFormed
  messages :
    run.messages = initial ++ (rounds.flatMap (fun round => round.messages) ++ openMessages)
  live : run.events.filter isLive = rounds.flatMap LiveRound.events ++ openEvents

/-- Between two rounds there are only chunks, and none once nothing is streamed. -/
def ShownClosed (initial : List Message) (run : AgentRun) : Prop :=
  ∃ (rounds : List LiveRound) (pending : List LlmChunk),
    Shows initial run rounds [] (pending.map forwardChunk) ∧
    (isStreaming run.phase = false → pending = [])

/-- The reply was streamed and recorded, its calls are announced, and so is every outcome. -/
def ShownOpened (initial : List Message) (run : AgentRun) (choice : Reply)
    (outcomes : List (Option (String × Bool))) :
    Prop :=
  outcomes.length = choice.message.toolCalls.length ∧
    ∃ (rounds : List LiveRound) (chunks : List LlmChunk) (announced : List StreamEvent),
      announced.Perm ((choice.message.toolCalls.zip outcomes).filterMap outcomeEvent) ∧
      Shows initial run rounds [choice.message] (chunks.map forwardChunk ++
        (.messageAppended choice.message :: (choice.message.toolCalls.map announceCall ++
          announced)))

def LiveInvariant (initial : List Message) (run : AgentRun) : Prop :=
  match run.phase.openRound with
  | some (choice, outcomes) => ShownOpened initial run choice outcomes
  | none => ShownClosed initial run

section Steps
variable {initial openMessages messages : List Message} {openEvents events : List StreamEvent}
  {rounds : List LiveRound}
  {run after : AgentRun}

/-- What a step adds belongs to the round in progress. -/
theorem Shows.add (shows_ : Shows initial run rounds openMessages openEvents)
    (adds : Adds run after events messages) :
    Shows initial after rounds (openMessages ++ messages) (openEvents ++ events.filter isLive) where
  wellFormed := shows_.wellFormed
  messages := by simp [adds.messages, shows_.messages]
  live := by simp [adds.events, shows_.live]

/-- A step without a live event shows nothing. -/
theorem Shows.quiet (shows_ : Shows initial run rounds openMessages openEvents)
    (adds : Adds run after events [])
    (quiet : events.filter isLive = []) : Shows initial after rounds openMessages openEvents := by
  have kept := shows_.add adds
  rwa [quiet, List.append_nil, List.append_nil] at kept

/-- A complete round joins the rounds before it. -/
theorem Shows.close (shows_ : Shows initial run rounds openMessages openEvents) (round : LiveRound)
    (wellFormed : round.WellFormed) (messages : openMessages = round.messages)
    (events : openEvents = round.events) :
    Shows initial run (rounds ++ [round]) [] [] where
  wellFormed other member := by
    rcases List.mem_append.mp member with old | new
    · exact shows_.wellFormed other old
    · rw [List.mem_singleton.mp new]
      exact wellFormed
  messages := by simp [shows_.messages, messages]
  live := by simp [shows_.live, events]

/-- Quiet events are not live. -/
theorem live_quiet (quiet : ∀ event ∈ events, isQuiet event) : events.filter isLive = [] := by
  rw [List.filter_eq_nil_iff]
  intro event member
  have silent := quiet event member
  cases event with
  | iterationStart | usage | contextTrimmed | finished => simp [isLive]
  | _ => simp [isQuiet] at silent

/-- Of the recorded calls, those that were cancelled are live. -/
theorem live_recorded (calls : List (ToolUseBlock × Option (String × Bool))) :
    (calls.flatMap recordEvents).filter isLive = calls.filterMap cancelledEvent := by
  induction calls with
  | nil => rfl
  | cons entry calls ih =>
      obtain ⟨call, outcome⟩ := entry
      rw [List.flatMap_cons, List.filter_append, ih]
      cases outcome with
      | none => rfl
      | some outcome => rfl

/-- A streamed chunk is live. -/
theorem live_chunk (chunk : LlmChunk) :
    [forwardChunk chunk].filter isLive = [forwardChunk chunk] := by
  cases chunk <;> rfl

/-- Of a reply, the message and its announcements are live. -/
theorem live_reply {choice : Reply} {first last : List StreamEvent}
    (silent : ∀ event ∈ first ++ last, isQuiet event) :
    (.messageAppended choice.message :: first ++ choice.message.toolCalls.map announceCall ++
        last).filter isLive =
      .messageAppended choice.message :: choice.message.toolCalls.map announceCall := by
  have before := live_quiet fun event member => silent event (List.mem_append_left last member)
  have behind := live_quiet fun event member => silent event (List.mem_append_right first member)
  have calls : (choice.message.toolCalls.map announceCall).filter isLive =
      choice.message.toolCalls.map announceCall := by
    simp [announceCall, isLive]
  simp [isLive, choice.fromAssistant, before, behind, calls]

/-- Outside of a round, the rounds are all that was shown. -/
theorem LiveInvariant.closed (invariant : LiveInvariant initial run)
    (outside : run.phase.openRound = none) :
    ShownClosed initial run := by
  rw [LiveInvariant, outside] at invariant
  exact invariant

/-- Inside of a round, its calls are shown as far as they are settled. -/
theorem LiveInvariant.opened {choice : Reply} {outcomes : List (Option (String × Bool))}
    (invariant : LiveInvariant initial run)
    (inside : run.phase.openRound = some (choice, outcomes)) :
    ShownOpened initial run choice outcomes := by
  rw [LiveInvariant, inside] at invariant
  exact invariant

/-- Rounds that are all that was shown are known outside of a round. -/
theorem LiveInvariant.of_closed {rounds : List LiveRound} (shows_ : Shows initial run rounds [] [])
    (outside : run.phase.openRound = none) : LiveInvariant initial run := by
  rw [LiveInvariant, outside]
  exact ⟨rounds, [], shows_, fun _ => rfl⟩

/-- The chunks that wait for their reply are those of the invariant. -/
theorem Shows.pending {pending : List LlmChunk}
    (shows_ : Shows initial run rounds [] (pending.map forwardChunk)) :
    splitStream [] run.events = (rounds.map fun round => (round.chunks, round.reply), pending) := by
  rw [← splitStream_live, shows_.live, splitStream_rounds shows_.wellFormed]

/-- A step without a live event keeps what is known. -/
theorem LiveInvariant.quiet (invariant : LiveInvariant initial run)
    (adds : Adds run after events [])
    (quiet : events.filter isLive = []) (same : after.phase.openRound = run.phase.openRound)
    (stays : isStreaming run.phase → isStreaming after.phase = false →
      pendingChunks run.events = []) :
    LiveInvariant initial after := by
  unfold LiveInvariant at invariant ⊢
  rw [same]
  split at invariant
  · obtain ⟨length, rounds, chunks, announced, moved, shows_⟩ := invariant
    exact ⟨length, rounds, chunks, announced, moved, shows_.quiet adds quiet⟩
  · obtain ⟨rounds, pending, shows_, ended⟩ := invariant
    refine ⟨rounds, pending, shows_.quiet adds quiet, fun stopped => ?_⟩
    by_cases streams : isStreaming run.phase
    · have none := stays streams stopped
      rwa [pendingChunks, shows_.pending] at none
    · exact ended (by simpa using streams)

/-- Chunks wait for their reply. -/
theorem ShownClosed.chunk (closed : ShownClosed initial run) {chunk : LlmChunk}
    (adds : Adds run after [forwardChunk chunk] []) (streams : isStreaming after.phase) :
    ShownClosed initial after := by
  obtain ⟨rounds, pending, shows_, _⟩ := closed
  refine ⟨rounds, pending ++ [chunk], ?_, fun stopped => ?_⟩
  · have more := shows_.add adds
    rwa [live_chunk, ← List.map_singleton, ← List.map_append] at more
  · rw [stopped] at streams
    cases streams

/-- A reply takes the chunks before it. -/
theorem ShownClosed.reply (closed : ShownClosed initial run) {choice : Reply}
    {first last : List StreamEvent} (adds : Adds run after
      (.messageAppended choice.message :: first ++ choice.message.toolCalls.map announceCall ++
          last) [choice.message])
    (silent : ∀ event ∈ first ++ last, isQuiet event)
    (next : after.phase.openRound = if choice.message.toolCalls = [] then none
      else some (choice, choice.message.toolCalls.map fun _ => none)) :
    LiveInvariant initial after := by
  obtain ⟨rounds, pending, shows_, _⟩ := closed
  have replied := shows_.add adds
  rw [live_reply silent] at replied
  split at next
  · next noCalls =>
    have single : (⟨choice.message, [], []⟩ : Round).WellFormed :=
      ⟨choice.fromAssistant, by simp [noCalls], .nil⟩
    have whole := replied.close ⟨⟨choice.message, [], []⟩, pending⟩ single rfl
      (by simp [LiveRound.events, Round.toolEvents, noCalls])
    exact .of_closed whole next
  · rw [LiveInvariant, next]
    refine ⟨by simp, rounds, pending, [], ?_, ?_⟩
    · rw [outcomeEvent_unsettled]
    · simpa using replied

/-- Every step of the loop keeps the invariant. -/
theorem LiveInvariant.step {json : SerdeJson} {action : AgentAction}
    (invariant : LiveInvariant initial run)
    (permitted : notMidStream run action) (stepped : run.step json action = some after) :
    LiveInvariant initial after := by
  cases step_round stepped with
  | quiet extra adds silent same stays =>
      refine invariant.quiet adds (live_quiet silent) same fun streams stopped => ?_
      by_cases seen : action = .observeCancel
      · exact permitted seen streams
      · rw [stays seen streams] at stopped
        cases stopped
  | chunk chunk adds same outside streams =>
      have next : after.phase.openRound = none := by rw [same, outside]
      rw [LiveInvariant, next]
      exact (invariant.closed outside).chunk adds (by rw [same]; exact streams)
  | reply choice first last adds silent outside next =>
    exact (invariant.closed outside).reply adds silent next
  | settle choice outcomes index call result isError adds inside called unsettled next =>
      obtain ⟨length, rounds, chunks, announced, same, shows_⟩ := invariant.opened inside
      rw [LiveInvariant, next]
      refine ⟨by simpa using length, rounds, chunks,
        announced ++ [announceResult call result isError], ?_, ?_⟩
      · exact (same.append_right _).trans
          (outcomeEvent_settled called unsettled result isError).symm
      · have told := shows_.add adds
        have live : [announceResult call result isError].filter isLive =
          [announceResult call result isError] := rfl
        rw [live] at told
        simpa using told
  | leave choice outcomes adds inside next =>
      obtain ⟨length, rounds, chunks, announced, same, shows_⟩ := invariant.opened inside
      have recorded := shows_.add adds
      rw [live_recorded] at recorded
      have whole := recorded.close ⟨⟨_, _, _⟩, chunks⟩ (wellFormed_recorded length same) rfl
        (by simp [LiveRound.events, Round.toolEvents])
      exact .of_closed whole next

end Steps

/-- In every run that is not stopped within a stream, the live events are those of its rounds. -/
theorem LiveInvariant.of_reachable {json : SerdeJson} {messages : List Message} {run : AgentRun}
    (reached : (agentLoop json messages).ReachableUnder notMidStream run) :
    LiveInvariant messages run := by
  apply reached.invariant
  · rintro first ⟨config, promptBuilder, toolsBytes, cancelled, rfl⟩
    have none : Shows messages (.start config promptBuilder toolsBytes messages cancelled)
        [] [] [] :=
      ⟨by simp, (List.append_nil messages).symm, rfl⟩
    exact .of_closed none rfl
  · intro first action last before permitted stepped
    exact before.step permitted stepped

end Openheim.Acp
