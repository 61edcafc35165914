import Openheim.Acp.ReplayShowsLive
import Openheim.Tui.AgentTask

/-
This file compares the chat of a session as it was shown live with the chat of the same session once
it is resumed.
-/

namespace Openheim.Tui
open Chunks Acp Memory

/-- What the chat shows of a conversation besides text and thinking. -/
inductive ShownEntry where
  | userMessage (text : String)
  | toolCall (name args : String)
  | toolResult (result : String) (isError : Bool)

def ShownEntry.isResult : ShownEntry → Bool
  | .userMessage _ | .toolCall _ _ => false
  | .toolResult _ _ => true

/-- What an item shows of the conversation; the notes of the interface are none of it. -/
def ChatItem.piece : ChatItem → Option (Piece ChunkKind ShownEntry)
  | .userMessage text => some (.item (.userMessage text))
  | .assistantMessage text => some (.chunk .text text)
  | .thinking text => some (.chunk .thinking text)
  | .toolCall name args => some (.item (.toolCall name args))
  | .toolResult result isError => some (.item (.toolResult result isError))
  | .systemInfo _ | .err _ => none

def App.pieces (app : App) : List (Piece ChunkKind ShownEntry) :=
  app.transcript.items.filterMap ChatItem.piece

/-- The conversation that a chat shows, with adjacent text merged. -/
def App.chat (app : App) : List (Piece ChunkKind ShownEntry) := merge app.pieces

/-- What an event of a turn adds to the chat. -/
def eventPiece : StreamEvent → Option (Piece ChunkKind ShownEntry)
  | .llmResponse content => some (.chunk .text content)
  | .thinkingContent content => some (.chunk .thinking content)
  | .toolCall _ toolName arguments => some (.item (.toolCall toolName arguments))
  | .toolResult _ _ result isError => some (.item (.toolResult result isError))
  | .iterationStart _ | .usage _ | .contextTrimmed _ | .finished _ _ | .messageAppended _ => none

section Live
variable {app : App}

/-- An item that is pushed is shown behind the others. -/
theorem chat_push (transcript : Transcript) (item : ChatItem) :
    merge ((transcript.push item).items.filterMap ChatItem.piece) =
    merge (transcript.items.filterMap ChatItem.piece ++ item.piece.toList) := by
  rw [Transcript.push, Transcript.invalidate, List.filterMap_append]
  cases shown : item.piece <;> simp [shown]

/-- Text that goes on with the item at the end is as good as an item of its own. -/
theorem chat_continue (items : List ChatItem) {last longer : ChatItem} {kind : ChunkKind}
    {existing content : String}
    (before : last.piece = some (.chunk kind existing))
    (after : longer.piece = some (.chunk kind (existing ++ content))) :
    merge ((items ++ [longer]).filterMap ChatItem.piece) =
      merge ((items ++ [last]).filterMap ChatItem.piece ++ [.chunk kind content]) := by
  rw [List.filterMap_append, List.filterMap_append, List.append_assoc]
  refine merge_append_congr rfl ?_
  simp only [List.filterMap_cons, List.filterMap_nil, before, after, List.cons_append,
    List.nil_append, merge_cons, merge_nil, push_push]

/-- Text is shown behind the chat, whether it goes on or begins. -/
theorem chat_appendAssistantText (transcript : Transcript) (content : String) :
    merge ((transcript.appendAssistantText content).items.filterMap ChatItem.piece) =
      merge (transcript.items.filterMap ChatItem.piece ++ [.chunk .text content]) := by
  rw [Transcript.appendAssistantText]
  split
  · next existing last =>
    have whole := List.dropLast_append_getLast? _ last
    conv => rhs; rw [← whole]
    exact chat_continue _ rfl rfl
  · exact chat_push transcript (.assistantMessage content)

/-- Thinking is shown behind the chat, whether it goes on or begins. -/
theorem chat_appendThinking (transcript : Transcript) (content : String) :
    merge ((transcript.appendThinking content).items.filterMap ChatItem.piece) =
      merge (transcript.items.filterMap ChatItem.piece ++ [.chunk .thinking content]) := by
  rw [Transcript.appendThinking]
  split
  · next existing last =>
    have whole := List.dropLast_append_getLast? _ last
    conv => rhs; rw [← whole]
    exact chat_continue _ rfl rfl
  · exact chat_push transcript (.thinking content)

/-- The chat grows by the piece of an event. -/
theorem chat_handleStreamEvent (app : App) (event : StreamEvent) :
    (app.handleStreamEvent event).chat =
    merge (app.pieces ++ (eventPiece event).toList) := by
  cases event with
  | llmResponse content => exact chat_appendAssistantText app.transcript content
  | thinkingContent content => exact chat_appendThinking app.transcript content
  | toolCall id toolName arguments => exact chat_push app.transcript (.toolCall toolName arguments)
  | toolResult id toolName result isError =>
    exact chat_push app.transcript (.toolResult result isError)
  | contextTrimmed dropped => exact chat_push app.transcript _
  | iterationStart | usage | finished | messageAppended =>
    exact (congrArg merge (List.append_nil _)).symm

end Live

/-- Only notes of the interface are added to the chat. -/
def OnlyNotes (app next : App) : Prop :=
  ∃ notes, next.transcript.items = app.transcript.items ++ notes ∧ ∀ note ∈ notes, note.piece = none

/-- The events of a turn arrive in their order, with notes in between. -/
inductive Receives : App → List StreamEvent → App → Prop where
  | done (app : App) : Receives app [] app
  | event {app after : App} {event : StreamEvent} {events : List StreamEvent}
      (rest : Receives (app.handleStreamEvent event) events after) :
      Receives app (event :: events) after
  | aside {app next after : App} {events : List StreamEvent} (notes : OnlyNotes app next)
      (rest : Receives next events after) : Receives app events after

/-- The messages of a session, and an interface that has shown it live: prompts are entered, and the
events of their turns arrive. -/
inductive Chatted (json : SerdeJson) : List Message → App → Prop where
  | opened {app : App} (empty : app.pieces = []) : Chatted json [] app
  | aside {messages : List Message} {app next : App} (chatted : Chatted json messages app)
      (notes : OnlyNotes app next) : Chatted json messages next
  | turn {prior : List Message} {app after : App} {outside : Outside} {run : AgentRun}
      {result : AgentResult}
      (chatted : Chatted json prior app) (idle : app.status = .idle)
      (typed : Lines.isBlank app.input.chars = false)
      (plain : ∀ command, Lines.trim app.input.chars ≠ ':' :: command)
      (reached :
        (agentLoop json
          (prior ++ [.ofUser (String.ofList (promptText app.input.chars))])).ReachableUnder
        notMidStream run)
      (returned : run.phase = .returned (.ok result))
      (streamed : ∀ reply ∈ streamedReplies run.events, ChunksGive reply.1 reply.2)
      (shown : Receives (app.handleEnter outside) run.events after) :
      Chatted json run.messages after

section Turns
variable {app next after : App} {events : List StreamEvent}

/-- Notes of the system are no pieces of the chat. -/
theorem OnlyNotes.pieces (notes : OnlyNotes app next) : next.pieces = app.pieces := by
  obtain ⟨added, items, silent⟩ := notes
  rw [App.pieces, items, List.filterMap_append, List.filterMap_eq_nil_iff.mpr silent,
    List.append_nil]
  rfl

/-- The chat grows by the pieces of the events. -/
theorem Receives.chat (received : Receives app events after) :
    after.chat = merge (app.pieces ++ events.filterMap eventPiece) := by
  induction received with
  | done app => rw [List.filterMap_nil, List.append_nil, App.chat]
  | @event app after event events _ ih =>
      have one :=
        merge_append_congr (chat_handleStreamEvent app event)
          (rfl : merge (events.filterMap eventPiece) = _)
      rw [ih, one, List.append_assoc]
      congr 2
      cases shown : eventPiece event <;> simp [shown]
  | aside notes _ ih => rw [ih, notes.pieces]

/-- An entered prompt is shown at once. -/
theorem chat_handleEnter {outside : Outside} (idle : app.status = .idle)
    (typed : Lines.isBlank app.input.chars = false)
    (plain : ∀ command, Lines.trim app.input.chars ≠ ':' :: command) :
    (app.handleEnter outside).pieces =
      app.pieces ++ [.item (.userMessage (String.ofList (promptText app.input.chars)))] := by
  have goes : ¬ (app.status ≠ .idle ∨ Lines.isBlank app.input.chars = true) := by simp [idle, typed]
  rw [App.handleEnter, if_neg goes]
  split
  · next command colon => exact absurd colon (plain command)
  · exact List.filterMap_append

end Turns

/-- The chat shows the arguments of a call as they are written. -/
def literalJson : SerdeJson := ⟨fun text => some (.string text), fun _ => ""⟩

/-- What the chat shows of an item that a client of the protocol would show. -/
def shownEntry : ShownItem → ShownEntry
  | .toolCall _ title _ rawInput => .toolCall title (match rawInput with
      | some (.string text) => text | _ => "")
  | .toolResult _ status rawOutput =>
      .toolResult (match rawOutput with | .string text => text | _ => "") (status = .failed)

/-- What a resumed session shows of a message. -/
def restoredPieces (message : Message) : List (Piece ChunkKind ShownEntry) :=
  (messageToChatItems message).filterMap ChatItem.piece

section Parts
variable {message : Message} {round : LiveRound} {rounds : List LiveRound}

/-- The chat shows a result as a client of the protocol does, and a call with its
arguments as they are written. -/
theorem eventPiece_eq (event : StreamEvent) :
    eventPiece event = (liveShown literalJson (.system []) event).map (Piece.map shownEntry) := by
  cases event with
  | toolResult id toolName result isError => cases isError <;> rfl
  | _ => rfl

/-- The chat shows the live events as a client does. -/
theorem pieces_live (events : List StreamEvent) : events.filterMap eventPiece =
    ((events.filter isLive).filterMap (liveShown literalJson (.system []))).map
      (Piece.map shownEntry) := by
  rw [List.map_filterMap, List.filterMap_filter]
  apply List.filterMap_congr
  intro event _
  rw [eventPiece_eq]
  cases event with
  | messageAppended message =>
      split
      · rfl
      · rfl
  | _ => rfl

/-- Only a message of the user shows the prompt. -/
theorem restoredPieces_eq (other : message.role ≠ .user) :
    restoredPieces message = (replayShown literalJson (.system []) message).map
      (Piece.map shownEntry) := by
  rw [restoredPieces, messageToChatItems, replayShown, List.filterMap_map, List.map_filterMap,
    Message.transcript, List.filterMap_filterMap, List.filterMap_filterMap]
  apply List.filterMap_congr
  intro block _
  cases found : TranscriptEntry.of message.role block with
  | none => rfl
  | some shown =>
      cases shown with
      | userText text =>
          refine absurd ?_ other
          cases role : message.role <;> cases block <;> simp_all [TranscriptEntry.of]
      | toolResult id name content isError => cases isError <;> rfl
      | _ => rfl

/-- A prompt is a part that is shown as it is kept. -/
def promptPart (text : String) : Part ChunkKind ShownEntry :=
  ⟨[], [.item (.userMessage text)], [], []⟩

def roundPart (round : LiveRound) : Part ChunkKind ShownEntry :=
  (round.part literalJson (.system [])).map shownEntry

/-- A result is shown as a result. -/
theorem shownEntry_isResult (item : ShownItem) : (shownEntry item).isResult = item.isResult := by
  cases item <;> rfl

/-- A prompt is restored as it was shown. -/
theorem promptPart_faithful (text : String) : (promptPart text).Faithful ShownEntry.isResult where
  streamed := rfl
  fixed item member := by
    cases List.mem_singleton.mp member
    rfl
  moved := .refl _
  free_ piece member := by cases member

/-- A round is stored with the text that it streamed. -/
theorem roundPart_faithful (wellFormed : round.WellFormed)
    (given : ChunksGive round.chunks round.reply) :
    (roundPart round).Faithful ShownEntry.isResult :=
  (part_faithful wellFormed given).map shownEntry_isResult

/-- What is shown live of the rounds. -/
theorem pieces_sent (wellFormed : ∀ round ∈ rounds, round.WellFormed) :
    ((rounds.flatMap LiveRound.events).filterMap (liveShown literalJson (.system []))).map
      (Piece.map shownEntry) =
      (rounds.map roundPart).flatMap Part.sent := by
  rw [shown_sent wellFormed, List.map_flatMap, List.flatMap_map, List.flatMap_map]
  congr 1
  funext round
  exact (Part.map_sent _).symm

theorem round_notUser (wellFormed : round.WellFormed) :
    ∀ message ∈ round.messages, message.role ≠ .user := by
  intro message member user
  rcases List.mem_cons.mp member with rfl | answer
  · rw [wellFormed.assistant] at user
    cases user
  · rw [answers_role wellFormed.answered answer] at user
    cases user

/-- What is shown of the rounds once they are restored. -/
theorem pieces_kept (wellFormed : ∀ round ∈ rounds, round.WellFormed) :
    (rounds.flatMap fun round => round.messages).flatMap restoredPieces =
      (rounds.map roundPart).flatMap Part.kept := by
  have whole :=
    congrArg (List.map (Piece.map shownEntry)) (@shown_kept literalJson (.system []) rounds)
  rw [List.map_flatMap, List.map_flatMap, List.flatMap_map] at whole
  rw [List.flatMap_map]
  refine Eq.trans ?_ (whole.trans ?_)
  · refine List.flatMap_congr fun message member => restoredPieces_eq ?_
    obtain ⟨round, inside, own⟩ := List.mem_flatMap.mp member
    exact round_notUser (wellFormed round inside) message own
  · congr 1
    funext round
    exact (Part.map_kept _).symm

/-- A round stores its text first when its reply has it before the calls. -/
theorem roundPart_ordered (wellFormed : round.WellFormed) :
    textFirst (roundPart round).stored = textBeforeCalls round.reply.content := by
  rw [roundPart, Chunks.Part.map, textFirst_map, LiveRound.part, reply_eq wellFormed,
    replayShown_assistant, textFirst_blocks]

end Parts

section Sessions
variable {json : SerdeJson} {messages prior : List Message} {app : App}
  {content : List ContentBlock} {run : AgentRun}
  {result : AgentResult}

/-- A turn that ends well adds its prompt and its rounds to the messages. -/
theorem messages_of_returned
    (reached : (agentLoop json (prior ++ [⟨.user, content⟩])).ReachableUnder notMidStream run)
    (returned : run.phase = .returned (.ok result)) : ∃ rounds : List LiveRound,
      (∀ round ∈ rounds, round.WellFormed) ∧
      run.events.filter isLive = rounds.flatMap LiveRound.events ∧
      streamedReplies run.events = (rounds.map fun round => (round.chunks, round.reply)) ∧
      run.messages = prior ++ ⟨.user, content⟩ :: rounds.flatMap fun round => round.messages := by
  obtain ⟨rounds, wellFormed, live, replies, stored⟩ := rounds_of_returned reached returned
  obtain ⟨others, pending, shows_, _⟩ :=
    (LiveInvariant.of_reachable reached).closed (by rw [returned]; rfl)
  refine ⟨rounds, wellFormed, live, replies, ?_⟩
  have front : run.messages.take prior.length = prior := by
    rw [shows_.messages, List.append_assoc, List.take_left]
  rw [← stored]
  conv => lhs; rw [← List.take_append_drop prior.length run.messages, front]

/-- The messages come in parts, which were shown as they were sent and
are restored as they are kept. -/
structure ChatParts (messages : List Message) (app : App)
    (parts : List (Part ChunkKind ShownEntry)) : Prop where
  faithful : ∀ part ∈ parts, part.Faithful ShownEntry.isResult
  live : app.chat = merge (parts.flatMap Part.sent)
  kept : messages.flatMap restoredPieces = parts.flatMap Part.kept
  ordered : (∀ part ∈ parts, textFirst part.stored) ↔
    ∀ message ∈ messages, message.role = .assistant → textBeforeCalls message.content

/-- Every chat comes in parts. -/
theorem Chatted.parts (chatted : Chatted json messages app) :
    ∃ parts, ChatParts messages app parts := by
  induction chatted with
  | @opened app empty =>
      refine ⟨[], by simp, ?_, rfl, by simp⟩
      rw [App.chat, empty]
      rfl
  | aside _ notes ih =>
      obtain ⟨parts, known⟩ := ih
      refine ⟨parts, known.faithful, ?_, known.kept, known.ordered⟩
      rw [App.chat, notes.pieces]
      exact known.live
  | @turn prior app after outside run result _ idle typed plain reached returned streamed
      shown ih =>
      obtain ⟨parts, known⟩ := ih
      obtain ⟨rounds, wellFormed, live, replies, stored⟩ := messages_of_returned reached returned
      rw [replies] at streamed
      have given : ∀ round ∈ rounds, ChunksGive round.chunks round.reply :=
        fun round member => streamed _ (List.mem_map.mpr ⟨round, member, rfl⟩)
      refine ⟨parts ++ promptPart (String.ofList (promptText app.input.chars)) ::
        rounds.map roundPart, ?_, ?_, ?_, ?_⟩
      · refine List.forall_mem_append.mpr ⟨known.faithful,
          List.forall_mem_cons.mpr ⟨promptPart_faithful _, ?_⟩⟩
        intro part member
        obtain ⟨round, inside, rfl⟩ := List.mem_map.mp member
        exact roundPart_faithful (wellFormed round inside) (given round inside)
      · rw [shown.chat, chat_handleEnter idle typed plain, pieces_live, live,
          pieces_sent wellFormed, List.append_assoc, List.flatMap_append, List.flatMap_cons]
        exact merge_append_congr known.live rfl
      · rw [stored, List.flatMap_append, List.flatMap_cons, known.kept, pieces_kept wellFormed,
          List.flatMap_append, List.flatMap_cons]
        rfl
      · rw [List.forall_mem_append, List.forall_mem_cons, known.ordered, stored,
          List.forall_mem_append, List.forall_mem_cons, replies_of_rounds wellFormed]
        refine and_congr_right fun _ => ?_
        constructor
        · rintro ⟨_, all⟩
          refine ⟨nofun, fun round member => ?_⟩
          rw [← roundPart_ordered (wellFormed round member)]
          exact all _ (List.mem_map.mpr ⟨round, member, rfl⟩)
        · rintro ⟨_, all⟩
          refine ⟨rfl, fun part member => ?_⟩
          obtain ⟨round, inside, rfl⟩ := List.mem_map.mp member
          rw [roundPart_ordered (wellFormed round inside)]
          exact all round inside

/-- A session that is opened from the list begins with an empty chat. -/
theorem pieces_openSession (uuid : UuidCrate) (app : App) (outside : Outside)
    (meta_ : ConversationMeta) :
    (app.openSession uuid outside meta_).pieces = [] := by
  rw [App.openSession]
  split
  · split <;> rfl
  · rfl

/-- A history that arrives is shown behind what is there. -/
theorem chat_history (app : App) (items : List ChatItem) :
    (app.handleUpdate (.history items)).pieces = app.pieces ++ items.filterMap ChatItem.piece := by
  rw [App.handleUpdate]
  induction items generalizing app with
  | nil => exact (List.append_nil _).symm
  | cons item items ih =>
      rw [List.foldl_cons, ih]
      have one : (app.push item).pieces = app.pieces ++ [item].filterMap ChatItem.piece :=
        List.filterMap_append
      rw [one, List.append_assoc, ← List.filterMap_append, List.singleton_append]

/-- A resumed session shows what was shown live, up to the order of neighbouring results, exactly
when no reply of it has text or thinking behind a tool call. -/
theorem restored_shows_live (chatted : Chatted json messages app) (uuid : UuidCrate)
    (outside : Outside) (meta_ : ConversationMeta) (opening : App) :
    SameUpTo (IsFree ShownEntry.isResult) app.chat
        ((opening.openSession uuid outside meta_).handleUpdate
            (.history (restoredItems none messages))).chat ↔
      ∀ message ∈ messages, message.role = .assistant → textBeforeCalls message.content := by
  obtain ⟨parts, known⟩ := chatted.parts
  have items : (restoredItems none messages).filterMap ChatItem.piece =
      messages.flatMap restoredPieces := by
    rw [restoredItems, List.filterMap_append, List.filterMap_append, List.filterMap_flatMap]
    exact List.append_nil _
  rw [known.live, App.chat, chat_history, pieces_openSession, List.nil_append, items, known.kept,
    Part.sameUpTo_iff known.faithful, known.ordered]

end Sessions

/-- The user types a request. -/
def typedApp : App := { startedApp with
  input := ⟨Utf8.encode "list".toList, (Utf8.encode "list".toList).length⟩ }

/-- The chat of a turn in which one call is denied is restored as it was shown. -/
theorem restored_shows_sample : ∃ (messages : List Message) (app : App), messages.length = 4 ∧
    SameUpTo (IsFree ShownEntry.isResult) app.chat
      ((startedApp.openSession Uuid.crate plainOutside (.new 0 0 none none [])).handleUpdate
        (.history (restoredItems none messages))).chat := by
  obtain ⟨run, result, executed, returned, streamed, stored⟩ : ∃ run result,
      (agentLoop AgentRun.sampleJson [.ofUser "list"]).exec listDirStart
        (listDirActions [.text "Let me", .text " look."] []) = some run ∧
      run.phase = .returned (.ok result) ∧
      streamedReplies run.events = [([.text "Let me", .text " look."], (listDir []).message),
        ([.text "Done."], .ofAssistant "Done.")] ∧
      run.messages = [.ofUser "list", (listDir []).message,
        .toolResult "1" "list_dir" "Permission denied by user." true, .ofAssistant "Done."] :=
    ⟨_, _, rfl, rfl, rfl, rfl⟩
  have chars : typedApp.input.chars = "list".toList :=
    congrArg (Option.getD · []) (Utf8.decode_encode _)
  have prompt : String.ofList (promptText typedApp.input.chars) = "list" := by
    rw [chars]
    decide
  have received (app : App) (events : List StreamEvent) :
      Receives app events (events.foldl App.handleStreamEvent app) := by
    induction events generalizing app with
    | nil => exact .done app
    | cons event events ih => exact .event (ih _)
  have given : ∀ reply ∈ streamedReplies run.events, ChunksGive reply.1 reply.2 := by
    rw [streamed]
    exact List.forall_mem_cons.mpr ⟨rfl, List.forall_mem_singleton.mpr rfl⟩
  have plain (command : List Char) : Lines.trim typedApp.input.chars ≠ ':' :: command := by
    intro colon
    have begins : (Lines.trim "list".toList).head? = some 'l' := by decide
    rw [← chars, colon] at begins
    exact absurd begins (by simp)
  have opened : Chatted AgentRun.sampleJson [] typedApp := .opened rfl
  have chatted : Chatted AgentRun.sampleJson run.messages _ :=
    opened.turn rfl (by rw [chars]; decide) plain
      (by rw [prompt]; exact listDir_reachable executed) returned given
        (received (typedApp.handleEnter plainOutside) _)
  refine ⟨run.messages, _, by rw [stored]; rfl,
    (restored_shows_live chatted _ _ _ startedApp).mpr ?_⟩
  rw [stored]
  decide

end Openheim.Tui
