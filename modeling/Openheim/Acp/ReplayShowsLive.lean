import Openheim.Acp.LiveRounds

namespace Openheim.Acp
open Openheim.Tools Chunks AgentRun

section Shown
variable {json : SerdeJson} {executor : ToolExecutor}

/-- What is shown of an event. -/
def liveShown (json : SerdeJson) (executor : ToolExecutor) (event : StreamEvent) :
    Option (Piece ChunkKind ShownItem) :=
  (streamEventToSessionUpdate json executor event).bind SessionUpdate.shown

/-- What is shown of the entries of a message. -/
def replayShown (json : SerdeJson) (executor : ToolExecutor) (message : Message) :
    List (Piece ChunkKind ShownItem) :=
  message.transcript.filterMap fun entry => (replayEntry json executor entry).shown

/-- A client is shown the live events, one by one. -/
theorem shown_live (events : List StreamEvent) :
    (acpUpdates json executor events).filterMap SessionUpdate.shown =
      (events.filter isLive).filterMap (liveShown json executor) := by
  rw [acpUpdates, List.filterMap_filterMap, List.filterMap_filter]
  apply List.filterMap_congr
  intro event _
  cases event with
  | messageAppended message =>
      split
      · rfl
      · rfl
  | _ => rfl

/-- A client is shown the replayed messages, one by one. -/
theorem shown_replay (messages : List Message) :
    (replayHistoryMessages json executor messages).filterMap SessionUpdate.shown =
      messages.flatMap (replayShown json executor) := by
  rw [replayHistoryMessages, List.filterMap_map]
  induction messages with
  | nil => rfl
  | cons message messages ih =>
      rw [List.flatMap_cons, List.filterMap_append, ih, List.flatMap_cons]
      rfl

/-- The client has typed what it sent. -/
theorem replayShown_user (content : List ContentBlock) :
    replayShown json executor ⟨.user, content⟩ = [] := by
  induction content with
  | nil => rfl
  | cons block content ih =>
      cases block <;> exact ih

/-- What is shown of a call, live or from the history. -/
def shownCall (json : SerdeJson) (executor : ToolExecutor) (call : ToolUseBlock) :
    Piece ChunkKind ShownItem :=
  .item (.toolCall call.id call.name (toolKindFor call.name executor)
    (rawInput json call.arguments))

/-- What is shown of a block of a reply from the history. -/
def shownBlock (json : SerdeJson) (executor : ToolExecutor) :
    ContentBlock → Option (Piece ChunkKind ShownItem)
  | .text text => if text.isEmpty then none else some (.chunk .text text)
  | .thinking thinking _ => if thinking.isEmpty then none else some (.chunk .thinking thinking)
  | .toolUse id name arguments _ => some (shownCall json executor ⟨id, name, arguments⟩)
  | _ => none

/-- A replayed reply shows its blocks. -/
theorem replayShown_assistant (content : List ContentBlock) :
    replayShown json executor ⟨.assistant, content⟩ =
      content.filterMap (shownBlock json executor) := by
  rw [replayShown, Message.transcript, List.filterMap_filterMap]
  apply List.filterMap_congr
  intro block _
  cases block with
  | text text =>
      by_cases empty : text.isEmpty
      · simp [TranscriptEntry.of, shownBlock, empty]
      · simp [TranscriptEntry.of, shownBlock, empty, replayEntry, SessionUpdate.shown]
  | thinking thinking signature =>
      by_cases empty : thinking.isEmpty
      · simp [TranscriptEntry.of, shownBlock, empty]
      · simp [TranscriptEntry.of, shownBlock, empty, replayEntry, thinkingChunk,
          SessionUpdate.shown]
  | _ => rfl

/-- The calls of a reply are what it shows besides its text. -/
theorem shown_calls (content : List ContentBlock) :
    (content.filterMap (shownBlock json executor)).filter isItem =
      (content.filterMap ContentBlock.asToolUse).map (shownCall json executor) := by
  induction content with
  | nil => rfl
  | cons block content ih =>
      rw [List.filterMap_cons, List.filterMap_cons]
      cases block with
      | text text =>
          by_cases empty : text.isEmpty
          · simpa [shownBlock, empty, ContentBlock.asToolUse] using ih
          · simpa [shownBlock, empty, ContentBlock.asToolUse, List.filter_cons, isItem] using ih
      | thinking thinking signature =>
          by_cases empty : thinking.isEmpty
          · simpa [shownBlock, empty, ContentBlock.asToolUse] using ih
          · simpa [shownBlock, empty, ContentBlock.asToolUse, List.filter_cons, isItem] using ih
      | toolUse id name arguments signature => exact congrArg (_ :: ·) ih
      | redactedThinking | image | toolResult => exact ih

/-- The text of a reply is what it streams, but for empty blocks. -/
theorem shown_chunks (content : List ContentBlock) :
    merge ((content.filterMap (shownBlock json executor)).filter isChunk) =
      merge (content.filterMap streamedBlock) := by
  induction content with
  | nil => rfl
  | cons block content ih =>
      rw [List.filterMap_cons, List.filterMap_cons]
      cases block with
      | text text =>
          by_cases empty : text = ""
          · simpa [shownBlock, streamedBlock, empty] using ih
          · simpa [shownBlock, streamedBlock, empty, List.filter_cons, isChunk] using
              congrArg (push (.chunk .text text)) ih
      | thinking thinking signature =>
          by_cases empty : thinking = ""
          · simpa [shownBlock, streamedBlock, empty] using ih
          · simpa [shownBlock, streamedBlock, empty, List.filter_cons, isChunk] using
              congrArg (push (.chunk .thinking thinking)) ih
      | toolUse | redactedThinking | image | toolResult => exact ih

end Shown

section Order
variable {json : SerdeJson} {executor : ToolExecutor}

/-- No block shows text when none of the pieces does. -/
theorem visible_blocks (content : List ContentBlock) :
    (content.filterMap (shownBlock json executor)).all (fun piece => !isVisible piece) =
      content.all fun block => !showsText block := by
  induction content with
  | nil => rfl
  | cons block content ih =>
      rw [List.filterMap_cons, List.all_cons, ← ih]
      cases block with
      | text text =>
          by_cases empty : text = ""
          · simp [shownBlock, showsText, empty]
          · simp [shownBlock, showsText, empty, isVisible]
      | thinking thinking signature =>
          by_cases empty : thinking = ""
          · simp [shownBlock, showsText, empty]
          · simp [shownBlock, showsText, empty, isVisible]
      | toolUse | redactedThinking | image | toolResult => rfl

/-- A reply has its text before its calls exactly when it is shown so. -/
theorem textFirst_blocks (content : List ContentBlock) :
    textFirst (content.filterMap (shownBlock json executor)) = textBeforeCalls content := by
  induction content with
  | nil => rfl
  | cons block content ih =>
      rw [List.filterMap_cons]
      cases block with
      | text text =>
          by_cases empty : text = ""
          · simpa [shownBlock, textBeforeCalls, empty] using ih
          · simpa [shownBlock, textBeforeCalls, empty, textFirst] using ih
      | thinking thinking signature =>
          by_cases empty : thinking = ""
          · simpa [shownBlock, textBeforeCalls, empty] using ih
          · simpa [shownBlock, textBeforeCalls, empty, textFirst] using ih
      | toolUse => exact visible_blocks content
      | redactedThinking | image | toolResult => exact ih

/-- The blocks of a reply show no result. -/
theorem fixed_blocks (content : List ContentBlock) (item : ShownItem)
    (member : .item item ∈ content.filterMap (shownBlock json executor)) :
    item.isResult = false := by
  obtain ⟨block, _, shown⟩ := List.mem_filterMap.mp member
  cases block with
  | text text =>
      rw [shownBlock] at shown
      split at shown
      · cases shown
      · cases shown
  | thinking thinking signature =>
      rw [shownBlock] at shown
      split at shown
      · cases shown
      · cases shown
  | toolUse =>
      cases shown
      rfl
  | redactedThinking | image | toolResult => cases shown

end Order

/-- What a round streams and what is kept of it. -/
def LiveRound.part (json : SerdeJson) (executor : ToolExecutor) (round : LiveRound) :
    Part ChunkKind ShownItem where
  streamed := round.chunks.map streamedChunk
  stored := replayShown json executor round.reply
  sentItems := round.announced.filterMap (liveShown json executor)
  storedItems := round.results.flatMap (replayShown json executor)

section Rounds
variable {json : SerdeJson} {executor : ToolExecutor} {round : LiveRound}

theorem reply_eq (wellFormed : round.WellFormed) :
    round.reply = ⟨.assistant, round.reply.content⟩ := by
  rw [← wellFormed.assistant]

/-- What was shown live of a round is what its part sends. -/
theorem part_sent (wellFormed : round.WellFormed) :
    round.events.filterMap (liveShown json executor) = (round.part json executor).sent := by
  have chunks : (round.chunks.map forwardChunk).filterMap (liveShown json executor) =
      round.chunks.map streamedChunk := by
    rw [List.filterMap_map, ← List.filterMap_eq_map]
    apply List.filterMap_congr
    intro chunk _
    cases chunk <;> rfl
  have calls : (round.reply.toolCalls.map announceCall).filterMap (liveShown json executor) =
      (replayShown json executor round.reply).filter isItem := by
    rw [reply_eq wellFormed, replayShown_assistant, shown_calls,
      List.filterMap_map, ← List.filterMap_eq_map]
    rfl
  have recorded : (StreamEvent.messageAppended round.reply :: round.toolEvents).filterMap
      (liveShown json executor) =
      round.toolEvents.filterMap (liveShown json executor) := rfl
  rw [LiveRound.events, List.filterMap_append, chunks, recorded, Round.toolEvents,
    List.filterMap_append, calls, ← List.append_assoc]
  rfl

/-- What is replayed of a round is what its part keeps. -/
theorem part_kept :
    round.messages.flatMap (replayShown json executor) = (round.part json executor).kept := rfl

/-- A stored result is shown as its event was. -/
theorem shown_results {calls : List ToolUseBlock} {results : List Message}
    (answered : List.Forall₂ Answers calls results) : results.flatMap (replayShown json executor) =
      (results.filterMap resultEvent).filterMap (liveShown json executor) := by
  induction answered with
  | nil => rfl
  | cons answers _ ih =>
      obtain ⟨content, isError, rfl⟩ := answers
      rw [List.flatMap_cons, ih]
      rfl

/-- A result is free to come in another order. -/
theorem free_results {results : List Message} (piece : Piece ChunkKind ShownItem)
    (member : piece ∈ (results.filterMap resultEvent).filterMap (liveShown json executor)) :
    IsFree ShownItem.isResult piece := by
  obtain ⟨event, told, shown⟩ := List.mem_filterMap.mp member
  obtain ⟨message, _, announced⟩ := List.mem_filterMap.mp told
  obtain ⟨block, _, rfl⟩ := Option.map_eq_some_iff.mp announced
  cases shown
  rfl

/-- A round whose chunks give its reply is streamed faithfully. -/
theorem part_faithful (wellFormed : round.WellFormed)
    (given : ChunksGive round.chunks round.reply) :
    (round.part json executor).Faithful ShownItem.isResult where
  streamed := by
    refine Eq.trans given ?_
    rw [LiveRound.part, reply_eq wellFormed, replayShown_assistant, shown_chunks]
  fixed := by
    rw [LiveRound.part, reply_eq wellFormed, replayShown_assistant]
    exact fixed_blocks _
  moved := by
    rw [LiveRound.part, shown_results wellFormed.answered]
    exact wellFormed.announced.filterMap _
  free_ piece member := free_results piece ((wellFormed.announced.filterMap _).mem_iff.mp member)

end Rounds

section Turn
variable {json : SerdeJson} {executor : ToolExecutor} {rounds : List LiveRound}

/-- The live updates show the rounds as they are sent. -/
theorem shown_sent (wellFormed : ∀ round ∈ rounds, round.WellFormed) :
    (rounds.flatMap LiveRound.events).filterMap (liveShown json executor) =
      (rounds.map (LiveRound.part json executor)).flatMap Part.sent := by
  induction rounds with
  | nil => rfl
  | cons round rounds ih =>
      obtain ⟨head, others⟩ := List.forall_mem_cons.mp wellFormed
      rw [List.flatMap_cons, List.filterMap_append, part_sent head, ih others]
      rfl

/-- The history shows the rounds as they are kept. -/
theorem shown_kept (rounds : List LiveRound) :
    (rounds.flatMap fun round => round.messages).flatMap (replayShown json executor) =
      (rounds.map (LiveRound.part json executor)).flatMap Part.kept := by
  induction rounds with
  | nil => rfl
  | cons round rounds ih =>
      rw [List.flatMap_cons, List.flatMap_append, part_kept, ih]
      rfl

/-- An answer is a tool message. -/
theorem answers_role {calls : List ToolUseBlock} {results : List Message} {message : Message}
    (answered : List.Forall₂ Answers calls results) (member : message ∈ results) :
    message.role = .tool := by
  induction answered with
  | nil => cases member
  | cons answers _ ih =>
      rcases List.mem_cons.mp member with rfl | later
      · obtain ⟨content, isError, rfl⟩ := answers
        rfl
      · exact ih later

/-- The assistant's messages of the rounds are their replies. -/
theorem replies_of_rounds (wellFormed : ∀ round ∈ rounds, round.WellFormed)
    (property : Message → Prop) :
    (∀ message ∈ rounds.flatMap fun round => round.messages, message.role = .assistant →
        property message) ↔
      ∀ round ∈ rounds, property round.reply := by
  constructor
  · intro all round member
    exact all round.reply (List.mem_flatMap.mpr ⟨round, member, List.mem_cons_self⟩)
      (wellFormed round member).assistant
  · intro all message member assistant
    obtain ⟨round, inside, own⟩ := List.mem_flatMap.mp member
    rcases List.mem_cons.mp own with rfl | answer
    · exact all round inside
    · rw [answers_role (wellFormed round inside).answered answer] at assistant
      cases assistant

end Turn

section Replay
variable {json : SerdeJson} {executor : ToolExecutor} {prior : List Message}
  {content : List ContentBlock}
  {run : AgentRun} {result : AgentResult}

/-- A turn that ends well is a list of rounds, live and in the history. -/
theorem rounds_of_returned
    (reached : (agentLoop json (prior ++ [⟨.user, content⟩])).ReachableUnder notMidStream run)
    (returned : run.phase = .returned (.ok result)) : ∃ rounds : List LiveRound,
      (∀ round ∈ rounds, round.WellFormed) ∧
      run.events.filter isLive = rounds.flatMap LiveRound.events ∧
      streamedReplies run.events = (rounds.map fun round => (round.chunks, round.reply)) ∧
      run.messages.drop prior.length = ⟨.user, content⟩ :: rounds.flatMap fun round =>
        round.messages := by
  have invariant := LiveInvariant.of_reachable reached
  obtain ⟨rounds, pending, shows_, ended⟩ := invariant.closed (by rw [returned]; rfl)
  have none := ended (by rw [returned]; rfl)
  refine ⟨rounds, shows_.wellFormed, ?_, by rw [streamedReplies, shows_.pending], ?_⟩
  · rw [shows_.live, none]
    exact List.append_nil _
  · rw [shows_.messages, List.append_nil, List.append_assoc, List.drop_left]
    rfl

/-- The replay of a turn shows what was shown live exactly when no reply of the turn has text or
thinking behind a tool call. -/
theorem replay_shows_live
    (reached : (agentLoop json (prior ++ [⟨.user, content⟩])).ReachableUnder notMidStream run)
    (returned : run.phase = .returned (.ok result))
    (streamed : ∀ reply ∈ streamedReplies run.events, ChunksGive reply.1 reply.2) :
    ShowSame (acpUpdates json executor run.events)
        (replayHistoryMessages json executor (run.messages.drop prior.length)) ↔
      ∀ message ∈ run.messages.drop prior.length, message.role = .assistant →
        textBeforeCalls message.content := by
  obtain ⟨rounds, wellFormed, live, replies, stored⟩ := rounds_of_returned reached returned
  rw [replies] at streamed
  have faithful : ∀ part ∈ rounds.map (LiveRound.part json executor),
      part.Faithful ShownItem.isResult := by
    intro part member
    obtain ⟨round, inside, rfl⟩ := List.mem_map.mp member
    exact part_faithful (wellFormed round inside)
      (streamed _ (List.mem_map.mpr ⟨round, inside, rfl⟩))
  rw [ShowSame, view, view, shown_live, live, shown_sent wellFormed, shown_replay, stored,
    List.flatMap_cons, replayShown_user, List.nil_append, shown_kept, Part.sameUpTo_iff faithful,
    List.forall_mem_cons, replies_of_rounds wellFormed]
  have ordered : ∀ round ∈ rounds,
      textFirst (round.part json executor).stored = textBeforeCalls round.reply.content := by
    intro round member
    rw [LiveRound.part, reply_eq (wellFormed round member), replayShown_assistant, textFirst_blocks]
  constructor
  · intro all
    refine ⟨nofun, fun round member => ?_⟩
    rw [← ordered round member]
    exact all _ (List.mem_map.mpr ⟨round, member, rfl⟩)
  · intro all part member
    obtain ⟨round, inside, rfl⟩ := List.mem_map.mp member
    rw [ordered round inside]
    exact all.2 round inside

end Replay

def listDir (content : List ContentBlock) : Reply :=
  ⟨⟨⟨.assistant, [.text "Let me look.", .toolUse "1" "list_dir" "{}" none] ++ content⟩,
    some .toolCalls, none⟩, rfl⟩

/-- The call of the first reply is denied, and the second reply ends the turn. -/
def listDirActions (chunks : List LlmChunk) (content : List ContentBlock) : List AgentAction :=
  [.proceed] ++ chunks.map .chunk ++ [.reply (.ok (listDir content)), .proceed,
    .decide 0 .rejectOnce, .proceed, .complete 0 (.ok ""), .proceed, .proceed, .proceed,
    .chunk (.text "Done."), .reply (.ok ⟨⟨.ofAssistant "Done.", some .stop, none⟩, rfl⟩)]

def listDirStart : AgentRun := .start sampleConfig none 0 [.ofUser "list"] false

theorem listDir_reachable {chunks : List LlmChunk} {content : List ContentBlock} {run : AgentRun}
    (executed : (agentLoop sampleJson [.ofUser "list"]).exec listDirStart
      (listDirActions chunks content) = some run) :
    (agentLoop sampleJson ([] ++ [⟨.user, [.text "list"]⟩])).ReachableUnder notMidStream run := by
  refine ⟨listDirStart, ⟨sampleConfig, none, 0, false, rfl⟩, Machine.exec_runs ?_ executed⟩
  apply Machine.permits_of_forall
  rintro action member s rfl
  simp [listDirActions] at member

/-- The text behind the call of the reply is shown before it live, and
behind it from the history. -/
theorem replay_reordered : ∃ run result,
    (agentLoop sampleJson ([] ++ [⟨.user, [.text "list"]⟩])).ReachableUnder notMidStream run ∧
    run.phase = .returned (.ok result) ∧ (∀ reply ∈ streamedReplies run.events,
        ChunksGive reply.1 reply.2) ∧
    ¬ ShowSame (acpUpdates sampleJson (.system []) run.events)
      (replayHistoryMessages sampleJson (.system [])
          (run.messages.drop ([] : List Message).length)) := by
  obtain ⟨run, result, executed, returned, streamed, live, stored⟩ : ∃ run result,
      (agentLoop sampleJson [.ofUser "list"]).exec listDirStart
        (listDirActions [.text "Let me look.", .text "One moment."]
          [.text "One moment."]) = some run ∧
      run.phase = .returned (.ok result) ∧
      streamedReplies run.events = [([.text "Let me look.", .text "One moment."],
        (listDir [.text "One moment."]).message), ([.text "Done."], .ofAssistant "Done.")] ∧
      gaps ShownItem.isResult 0 (view (acpUpdates sampleJson (.system []) run.events)) = [23, 5] ∧
      gaps ShownItem.isResult 0
          (view (replayHistoryMessages sampleJson (.system []) run.messages)) = [12, 16] :=
    ⟨_, _, rfl, rfl, rfl, by decide +kernel, by decide +kernel⟩
  refine ⟨run, result, listDir_reachable executed, returned, ?_, fun same => ?_⟩
  · rw [streamed]
    exact List.forall_mem_cons.mpr ⟨rfl, List.forall_mem_singleton.mpr rfl⟩
  · have equal := gaps_sameUpTo same 0
    rw [live, List.length_nil, List.drop_zero, stored] at equal
    cases equal

/-- The sample turn without that text is replayed as it was shown. -/
theorem replay_shows_sample : ∃ run : AgentRun, run.messages.length = 4 ∧
    ShowSame (acpUpdates sampleJson (.system []) run.events)
      (replayHistoryMessages sampleJson (.system [])
          (run.messages.drop ([] : List Message).length)) := by
  obtain ⟨run, result, executed, returned, streamed, stored⟩ : ∃ run result,
      (agentLoop sampleJson [.ofUser "list"]).exec listDirStart
        (listDirActions [.text "Let me", .text " look."] []) = some run ∧
      run.phase = .returned (.ok result) ∧
      streamedReplies run.events = [([.text "Let me", .text " look."], (listDir []).message),
        ([.text "Done."], .ofAssistant "Done.")] ∧
      run.messages = [.ofUser "list", (listDir []).message,
        .toolResult "1" "list_dir" "Permission denied by user." true, .ofAssistant "Done."] :=
    ⟨_, _, rfl, rfl, rfl, rfl⟩
  refine ⟨run, by rw [stored]; rfl,
    (replay_shows_live (listDir_reachable executed) returned ?_).mpr ?_⟩
  · rw [streamed]
    exact List.forall_mem_cons.mpr ⟨rfl, List.forall_mem_singleton.mpr rfl⟩
  · rw [stored]
    decide

end Openheim.Acp
