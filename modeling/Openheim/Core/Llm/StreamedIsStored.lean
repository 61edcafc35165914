import Openheim.Core.Llm.AnthropicStream
import Openheim.Core.Llm.GeminiStream
import Openheim.Core.Llm.OpenAiStream
import Openheim.Library.Joined

/-
This file shows that the pieces of a reply that were sent while it was read are the text and the
thinking of the message that is stored, for each of the three providers.
-/

namespace Openheim

def ContentBlock.asThinking : ContentBlock → Option String
  | .thinking thought _ => some thought
  | _ => none

def LlmChunk.asText : LlmChunk → Option String
  | .text written => some written
  | .thinking _ => none

def LlmChunk.asThinking : LlmChunk → Option String
  | .text _ => none
  | .thinking thought => some thought

namespace Llm

open Joined

/-- The text that was sent is the text that is stored. -/
def SameText (pieces : List LlmChunk) (message : Message) : Prop :=
  joined LlmChunk.asText pieces = joined ContentBlock.asText message.content

def SameThinking (pieces : List LlmChunk) (message : Message) : Prop :=
  joined LlmChunk.asThinking pieces = joined ContentBlock.asThinking message.content

section Sent
variable {kind : String → LlmChunk} {read : LlmChunk → Option String} (sent : Option String)

/-- A piece that is read by its kind gives back the text that was sent. -/
theorem joined_sentPiece (reads : ∀ text, read (kind text) = some text) :
    joined read (sentPiece kind sent) = sent.getD "" := by
  cases sent with
  | none => rfl
  | some text => by_cases empty : text.isEmpty <;> simp_all [sentPiece]

/-- A piece of another kind gives no text. -/
theorem joined_sentPiece_other (reads : ∀ text, read (kind text) = none) :
    joined read (sentPiece kind sent) = "" := by
  cases sent with
  | none => rfl
  | some text => by_cases empty : text.isEmpty <;> simp_all [sentPiece]

@[simp] theorem joined_sentPiece_text :
    joined LlmChunk.asText (sentPiece .text sent) = sent.getD "" :=
  joined_sentPiece sent fun _ => rfl

@[simp] theorem joined_sentPiece_thinking :
    joined LlmChunk.asThinking (sentPiece .thinking sent) = sent.getD "" :=
  joined_sentPiece sent fun _ => rfl

@[simp] theorem joined_sentPiece_text_thinking :
    joined LlmChunk.asThinking (sentPiece .text sent) = "" :=
  joined_sentPiece_other sent fun _ => rfl

@[simp] theorem joined_sentPiece_thinking_text :
    joined LlmChunk.asText (sentPiece .thinking sent) = "" :=
  joined_sentPiece_other sent fun _ => rfl

end Sent

/-- The text block of a message holds the text, and is left out when it is empty. -/
theorem joined_textBlock (text : String) :
    joined ContentBlock.asText (if text.isEmpty then [] else [.text text]) = text := by
  by_cases empty : text.isEmpty <;> simp_all [ContentBlock.asText]

/-- A text block holds no thinking. -/
theorem joined_textBlock_thinking (text : String) :
    joined ContentBlock.asThinking (if text.isEmpty then [] else [.text text]) = "" := by
  by_cases empty : text.isEmpty <;> simp_all [ContentBlock.asThinking]

section Finished
variable {Parser : Type} {streamParser : StreamParser Parser} {reading taken : Reading Parser}

/-- A stream that stops at a payload ends with what that payload gave. -/
theorem takeAll_finished {result : Except Error Choice} (payloads : List String)
    (took : reading.takeAll streamParser payloads = (taken, some (.finished result))) :
    streamParser.finish taken.parser = result := by
  induction payloads generalizing reading with
  | nil => cases took
  | cons data rest ih =>
      rw [Reading.takeAll] at took
      split at took
      · next once ended first =>
        cases took
        unfold Reading.take at first
        dsimp only at first
        split at first
        · cases first
        · cases first
          rfl
        · cases first
      · exact ih took

/-- A reply that is read was finished from what the parser had taken. -/
theorem conclude_finished {result : Except Error Choice} {payloads : List String}
    (ends : conclude streamParser none (reading.takeAll streamParser payloads) =
      (taken, .finished result)) :
    (reading.takeAll streamParser payloads).1 = taken ∧
      streamParser.finish taken.parser = result := by
  rcases took : reading.takeAll streamParser payloads with ⟨last, ended⟩
  rw [took] at ends
  cases ended with
  | none =>
      cases ends
      exact ⟨rfl, rfl⟩
  | some ended =>
      cases ends
      exact ⟨rfl, takeAll_finished payloads took⟩

end Finished

namespace GeminiStream
variable (reader : GeminiReader)

/-- Taking parts appends the text that was sent of them. -/
theorem foldl_takePart_text (parts : List GeminiPart) (stream : GeminiStream) :
    (parts.foldl (takePart reader) stream).text =
      stream.text ++ joined LlmChunk.asText (parts.flatMap fun part =>
          sentPiece .text part.text) := by
  induction parts generalizing stream with
  | nil => simp
  | cons part rest ih =>
      rw [List.foldl_cons, ih, takePart, List.flatMap_cons, joined_append, joined_sentPiece_text,
        String.append_assoc]

/-- Taking events appends the text that was sent of them. -/
theorem foldl_take_text (events : List GeminiResponse) (stream : GeminiStream) :
    (events.foldl (take reader) stream).text =
      stream.text ++ joined LlmChunk.asText (events.flatMap sent) := by
  induction events generalizing stream with
  | nil => simp
  | cons event rest ih =>
      have once : (stream.take reader event).text = stream.text ++
          joined LlmChunk.asText (sent event) := by
        unfold take sent
        cases event.candidates with
        | nil => simp
        | cons candidate others => exact foldl_takePart_text reader candidate.parts _
      rw [List.foldl_cons, ih, once, List.flatMap_cons, joined_append, String.append_assoc]

/-- This provider sends no thinking. -/
theorem thinking_sent (events : List GeminiResponse) :
    joined LlmChunk.asThinking (events.flatMap sent) = "" := by
  induction events with
  | nil => rfl
  | cons event rest ih =>
      rw [List.flatMap_cons, joined_append, ih, sent]
      cases event.candidates.head? with
      | none => rfl
      | some candidate =>
          dsimp only [Option.elim_some]
          induction candidate.parts with
          | nil => rfl
          | cons part rest ih => simpa using ih

/-- The calls of a reply have neither text nor thinking. -/
theorem foldl_take_filterMap {kind : ContentBlock → Option String}
    (noCall : ∀ id name arguments signature, kind (.toolUse id name arguments signature) = none)
    (events : List GeminiResponse) (stream : GeminiStream) :
    (events.foldl (take reader) stream).toolUses.filterMap kind =
      stream.toolUses.filterMap kind := by
  have parts : ∀ (parts : List GeminiPart) (before : GeminiStream),
      (parts.foldl (takePart reader) before).toolUses.filterMap kind =
          before.toolUses.filterMap kind := by
    intro parts
    induction parts with
    | nil => exact fun _ => rfl
    | cons part rest ih =>
        intro before
        rw [List.foldl_cons, ih, takePart, List.filterMap_append]
        cases part.functionCall with
        | none => simp
        | some call => simp [Gemini.toolUseBlock, noCall]
  induction events generalizing stream with
  | nil => rfl
  | cons event rest ih =>
      rw [List.foldl_cons, ih]
      unfold take
      cases event.candidates with
      | nil => rfl
      | cons candidate others => exact parts _ _

/-- A stored call holds neither text nor thinking. -/
theorem joined_toolUses {kind : ContentBlock → Option String}
    (noCall : ∀ id name arguments signature, kind (.toolUse id name arguments signature) = none)
    (events : List GeminiResponse) :
    joined kind (events.foldl (take reader) new).toolUses = "" := by
  rw [joined, foldl_take_filterMap reader noCall]
  rfl

/-- What was sent of a stream is the text and the thinking of its message. -/
theorem finish_same {payloads : List String} {reading : Reading GeminiStream} {choice : Choice}
    (ends : conclude (parser reader) none
      ((⟨new, [], []⟩ : Reading GeminiStream).takeAll (parser reader) payloads) =
      (reading, .finished (.ok choice))) :
    SameText reading.sent choice.message ∧ SameThinking reading.sent choice.message := by
  obtain ⟨taken, finished⟩ := conclude_finished ends
  rw [takeAll_eq] at taken
  rw [finish_ok finished, ← taken]
  have text := foldl_take_text reader (payloads.filterMap (event reader)) new
  have noText := @joined_toolUses reader ContentBlock.asText (fun _ _ _ _ => rfl)
    (payloads.filterMap (event reader))
  have noThinking := @joined_toolUses reader ContentBlock.asThinking (fun _ _ _ _ => rfl)
    (payloads.filterMap (event reader))
  constructor
  · simp only [SameText, joined_append, joined_textBlock, noText, text]
    simp [new]
  · simp only [SameThinking, joined_append, joined_textBlock_thinking, noThinking, thinking_sent]
    simp

end GeminiStream

namespace OpenAiStream
variable (reader : OpenAiReader) (stream : OpenAiStream)

/-- Thinking blocks leave the text as it is. -/
theorem foldl_thinkingBlock_text (blocks : List OpenAiThinkingBlock) :
    (blocks.foldl thinkingBlock stream).text = stream.text := by
  induction blocks generalizing stream with
  | nil => rfl
  | cons block rest ih =>
      rw [List.foldl_cons, ih]
      unfold thinkingBlock
      split
      · split <;> rfl
      · split <;> rfl
      · rfl

/-- Taking chunks appends the text that was sent of them. -/
theorem foldl_takeContent_text (chunks : List OpenAiStreamChunk) :
    (chunks.foldl (takeContent reader) stream).text =
      stream.text ++ joined LlmChunk.asText (chunks.flatMap sent) := by
  induction chunks generalizing stream with
  | nil => simp
  | cons chunk rest ih =>
      have once : (stream.takeContent reader chunk).text = stream.text ++
          joined LlmChunk.asText (sent chunk) := by
        unfold takeContent sent
        cases chunk.choices with
        | nil => simp
        | cons choice others => simp [foldl_thinkingBlock_text]
      rw [List.foldl_cons, ih, once, List.flatMap_cons, joined_append, String.append_assoc]

/-- The thinking blocks that a chunk carries. -/
def thinkingBlocks (chunk : OpenAiStreamChunk) : List OpenAiThinkingBlock :=
  chunk.choices.head?.elim [] fun choice => choice.delta.takeThinkingBlocks reader

/-- Without thinking blocks the reasoning is all the thinking there is. -/
theorem foldl_takeContent_reasoning (chunks : List OpenAiStreamChunk)
    (unsigned : ∀ chunk ∈ chunks, thinkingBlocks reader chunk = []) :
    (chunks.foldl (takeContent reader) stream).thinking = stream.thinking ∧
      (chunks.foldl (takeContent reader) stream).reasoning =
        stream.reasoning ++ joined LlmChunk.asThinking (chunks.flatMap sent) := by
  induction chunks generalizing stream with
  | nil => simp
  | cons chunk rest ih =>
      obtain ⟨first, later⟩ := List.forall_mem_cons.mp unsigned
      have once : (stream.takeContent reader chunk).thinking = stream.thinking ∧
          (stream.takeContent reader chunk).reasoning =
            stream.reasoning ++ joined LlmChunk.asThinking (sent chunk) := by
        unfold takeContent sent
        unfold thinkingBlocks at first
        cases found : chunk.choices with
        | nil => simp
        | cons choice others =>
            rw [found] at first
            replace first : choice.delta.takeThinkingBlocks reader = [] := first
            simp [first]
      obtain ⟨thinking, reasoning⟩ := ih (stream.takeContent reader chunk) later
      rw [List.foldl_cons, thinking, reasoning, once.1, once.2, List.flatMap_cons, joined_append,
        String.append_assoc]
      exact ⟨rfl, rfl⟩

/-- An assembled call holds neither text nor thinking. -/
theorem joined_toolUses {kind : ContentBlock → Option String}
    (noCall : ∀ id name arguments signature, kind (.toolUse id name arguments signature) = none)
    (newIds : Nat → Uuid) (calls : List ToolCallAcc) :
    joined kind (calls.zipIdx.filterMap fun (acc, position) => acc.intoToolUse (newIds position)) =
      "" := by
  have none : ∀ acc uuid, (ToolCallAcc.intoToolUse uuid acc).bind kind = none := by
    intro acc uuid
    unfold ToolCallAcc.intoToolUse
    split
    · rfl
    · exact noCall _ _ _ _
  rw [joined, List.filterMap_filterMap]
  simp [none]

/-- The thinking blocks hold nothing of another kind. -/
theorem joined_thinking {kind : ContentBlock → Option String}
    (noThinking : ∀ thought signature, kind (.thinking thought signature) = none)
    (noRedacted : ∀ data, kind (.redactedThinking data) = none) (chunks : List OpenAiStreamChunk) :
    joined kind (chunks.foldl (takeContent reader) new).thinking = "" := by
  rw [joined, foldl_takeContent_filterMap reader new noThinking noRedacted]
  rfl

section Assemble
variable (thinking toolUses : List ContentBlock) (reasoning text : String)

/-- The text of the message is that of its thinking blocks, the text and its calls. -/
theorem joined_assembleContent_text :
    joined ContentBlock.asText (OpenAi.assembleContent thinking reasoning text toolUses) =
      joined ContentBlock.asText thinking ++ text ++ joined ContentBlock.asText toolUses := by
  by_cases silent : reasoning.isEmpty <;> by_cases empty : text.isEmpty <;>
    simp_all [OpenAi.assembleContent, ContentBlock.asText, String.append_assoc]

/-- The thinking of the message is that of its blocks, the reasoning and its calls. -/
theorem joined_assembleContent_thinking :
    joined ContentBlock.asThinking (OpenAi.assembleContent thinking reasoning text toolUses) =
      joined ContentBlock.asThinking thinking ++ reasoning ++ joined ContentBlock.asThinking
        toolUses := by
  by_cases silent : reasoning.isEmpty <;> by_cases empty : text.isEmpty <;>
    simp_all [OpenAi.assembleContent, ContentBlock.asThinking, String.append_assoc]

end Assemble

/-- What was sent is the text of the message, and also its thinking if
no chunk has thinking blocks. -/
theorem finish_same {limit : VecLimit} {newIds : Nat → Uuid} {payloads : List String}
    {pieces : List LlmChunk}
    {choice : Choice} (ends : new.read reader limit newIds payloads = some (pieces, .ok choice)) :
    SameText pieces choice.message ∧
      ((∀ chunk ∈ chunks reader payloads, thinkingBlocks reader chunk = []) →
        SameThinking pieces choice.message) := by
  obtain ⟨rfl, calls, _, message⟩ := read_ok ends
  rw [message]
  have noText := @joined_toolUses ContentBlock.asText (fun _ _ _ _ => rfl) newIds calls
  have noThinking := @joined_toolUses ContentBlock.asThinking (fun _ _ _ _ => rfl) newIds calls
  constructor
  · have text := foldl_takeContent_text reader new (chunks reader payloads)
    have thinking := @joined_thinking reader ContentBlock.asText (fun _ _ => rfl) (fun _ => rfl)
      (chunks reader payloads)
    rw [SameText, joined_assembleContent_text, noText, assembled, thinking, text]
    simp [new]
  · intro unsigned
    obtain ⟨thinking, reasoning⟩ :=
      foldl_takeContent_reasoning reader new (chunks reader payloads) unsigned
    rw [SameThinking, joined_assembleContent_thinking, noThinking, assembled, thinking, reasoning]
    simp [new]

end OpenAiStream

namespace AnthropicStream

/-- Every block is opened once, in the order of the indexes, and the deltas of a block come before
the next one opens. The blocks opened so far stand with the last one first. -/
def InSequence : List Nat → List AnthropicStreamEvent → Prop
  | _, [] => True
  | opened, .contentBlockStart index _ :: rest =>
      (∀ earlier ∈ opened, earlier < index) ∧ InSequence (index :: opened) rest
  | opened, .contentBlockDelta index _ :: rest =>
      (index ∈ opened → opened.head? = some index) ∧ InSequence opened rest
  | opened, _ :: rest => InSequence opened rest

/-- Everything that a list of events sends. -/
def sentAll (stream : AnthropicStream) : List AnthropicStreamEvent → List LlmChunk
  | [] => []
  | event :: rest => stream.sent event ++ sentAll (stream.take event) rest

section Run
variable {parsePayload : String → Option AnthropicStreamEvent}
  {reading taken : Reading AnthropicStream}

/-- One payload is taken: its event changes the stream and sends its pieces. -/
theorem take_run (data : String) :
    (reading.take (parser parsePayload) data).1 =
      ⟨(event parsePayload data).elim reading.parser reading.parser.take,
          reading.payloads ++ [data],
        reading.sent ++ (event parsePayload data).elim [] reading.parser.sent⟩ := by
  simp only [Reading.take, parser, payload]
  cases event parsePayload data with
  | none => rfl
  | some event => cases event <;> rfl

/-- What was read are some of the payloads, taken event by event. -/
theorem takeAll_run (payloads : List String) :
    ∃ read, (reading.takeAll (parser parsePayload) payloads).1 =
      ⟨(read.filterMap (event parsePayload)).foldl take reading.parser, reading.payloads ++ read,
        reading.sent ++ sentAll reading.parser (read.filterMap (event parsePayload))⟩ := by
  induction payloads generalizing reading with
  | nil => exact ⟨[], by simp [Reading.takeAll, sentAll]⟩
  | cons data rest ih =>
      have once := @take_run parsePayload reading data
      rw [Reading.takeAll]
      rcases took : reading.take (parser parsePayload) data with ⟨next, ended⟩
      rw [took] at once
      dsimp only at once
      subst once
      cases ended with
      | some ended =>
          refine ⟨[data], ?_⟩
          cases carried : event parsePayload data with
          | none => simp [carried, sentAll]
          | some event => simp [carried, sentAll]
      | none =>
          obtain ⟨read, taken⟩ :=
            @ih ⟨(event parsePayload data).elim reading.parser reading.parser.take,
            reading.payloads ++ [data],
              reading.sent ++ (event parsePayload data).elim [] reading.parser.sent⟩
          refine ⟨data :: read, ?_⟩
          dsimp only
          rw [taken]
          cases carried : event parsePayload data with
          | none => simp [carried]
          | some event => simp [carried, sentAll]

end Run

section Kind

/-- A kind of text: how it is read off a block and off a piece that was sent. What a delta adds to a
block is what it sends. -/
structure Kind where
  ofBlock : StreamBlock → Option String
  ofChunk : LlmChunk → Option String
  opened : ∀ contentBlock, (ofBlock (StreamBlock.opened contentBlock)).getD "" = ""
  grows : ∀ block delta,
    (ofBlock (block.apply delta)).getD "" = (ofBlock block).getD "" ++
      joined ofChunk (block.sent delta)

def textKind : Kind where
  ofBlock block := match block with
    | .text written => some written
    | _ => none
  ofChunk := LlmChunk.asText
  opened contentBlock := by cases contentBlock <;> rfl
  grows block delta := by
    cases block <;> cases delta <;> simp [StreamBlock.apply, StreamBlock.sent, LlmChunk.asText]

def thinkingKind : Kind where
  ofBlock block := match block with
    | .thinking thought _ => some thought
    | _ => none
  ofChunk := LlmChunk.asThinking
  opened contentBlock := by cases contentBlock <;> rfl
  grows block delta := by
    cases block <;> cases delta <;> simp [StreamBlock.apply, StreamBlock.sent, LlmChunk.asThinking]

variable (kind : Kind) (stream : AnthropicStream)

/-- What the blocks hold of a kind, in their order. -/
def held : String := joined kind.ofBlock (stream.blocks.map Prod.snd)

variable {stream}

/-- The block that was opened last stands at the end. -/
theorem last_block {index : Nat} {opened : List Nat}
    (keys : stream.blocks.map Prod.fst = (index :: opened).reverse) :
    ∃ init block, stream.blocks = init ++ [(index, block)] ∧ ∀ entry ∈ init, entry.1 < index := by
  rw [List.reverse_cons, List.map_eq_append_iff] at keys
  obtain ⟨init, last, split, _, single⟩ := keys
  obtain ⟨⟨key, block⟩, rfl, rfl⟩ := List.map_eq_singleton_iff.mp single
  refine ⟨init, block, split, fun entry member => ?_⟩
  have ordered := stream.ordered
  rw [split] at ordered
  exact (List.pairwise_append.mp ordered).2.2 entry member _ List.mem_cons_self

/-- A block is found by its index only once it was opened. -/
theorem mem_keys {index : Nat} {opened : List Nat}
    (keys : stream.blocks.map Prod.fst = opened.reverse) :
    index ∉ opened → stream.blocks.lookup index = none := by
  intro absent
  rw [List.lookup_eq_none_iff]
  intro entry member
  have known : entry.1 ∈ opened := List.mem_reverse.mp (keys ▸ List.mem_map_of_mem member)
  have other : index ≠ entry.1 := by
    rintro rfl
    exact absent known
  simpa using other

/-- In the usual order an event adds to the blocks what it sends. -/
theorem held_take {event : AnthropicStreamEvent} {rest : List AnthropicStreamEvent}
    {opened : List Nat}
    (keys : stream.blocks.map Prod.fst = opened.reverse)
    (usual : InSequence opened (event :: rest)) :
    (∃ now, (stream.take event).blocks.map Prod.fst = now.reverse ∧ InSequence now rest) ∧
      held kind (stream.take event) =
        held kind stream ++ joined kind.ofChunk (stream.sent event) := by
  cases event with
  | contentBlockStart index contentBlock =>
      obtain ⟨last, usual⟩ := usual
      have grown : (stream.take (.contentBlockStart index contentBlock)).blocks =
          stream.blocks ++ [(index, StreamBlock.opened contentBlock)] := by
        refine SortedMap.insert_last (fun entry member => last entry.1 ?_) _
        exact List.mem_reverse.mp (keys ▸ List.mem_map_of_mem member)
      refine ⟨⟨index :: opened, by simp [grown, keys], usual⟩, ?_⟩
      simp [held, grown, sent, kind.opened]
  | contentBlockDelta index delta =>
      obtain ⟨last, usual⟩ := usual
      by_cases known : index ∈ opened
      · obtain ⟨others, rfl⟩ := List.head?_eq_some_iff.mp (last known)
        obtain ⟨init, block, split, before⟩ := last_block keys
        have grown : (stream.take (.contentBlockDelta index delta)).blocks =
            init ++ [(index, block.apply delta)] :=
          (congrArg (SortedMap.modify index fun block : StreamBlock => block.apply delta)
            split).trans
            (SortedMap.modify_last before _ block)
        refine ⟨⟨index :: others, by rw [← keys, grown, split]; simp, usual⟩, ?_⟩
        simp [held, grown, split, sent, SortedMap.lookup_last before, kind.grows,
          String.append_assoc]
      · have unknown := mem_keys keys known
        have same : (stream.take (.contentBlockDelta index delta)).blocks = stream.blocks := by
          simp [take, SortedMap.modify, unknown]
        refine ⟨⟨opened, by rw [same, keys], usual⟩, ?_⟩
        simp [held, same, sent, unknown]
  | messageStart | messageDelta | messageStop | error | other =>
      exact ⟨⟨opened, keys, usual⟩, String.append_empty.symm⟩

/-- Where blocks are opened in sequence, what the blocks hold is what was sent. -/
theorem held_run (events : List AnthropicStreamEvent) {opened : List Nat}
    (keys : stream.blocks.map Prod.fst = opened.reverse) (usual : InSequence opened events) :
    held kind (events.foldl take stream) =
      held kind stream ++ joined kind.ofChunk (stream.sentAll events) := by
  induction events generalizing stream opened with
  | nil => simp [sentAll]
  | cons event rest ih =>
      obtain ⟨⟨now, keys, usual⟩, once⟩ := held_take kind keys usual
      rw [List.foldl_cons, sentAll, joined_append, ← String.append_assoc, ih keys usual, once]

/-- The content of a finished message holds what the blocks held. -/
theorem joined_content {read : ContentBlock → Option String}
    (stored : ∀ block : StreamBlock, (block.intoContent.bind read).getD "" =
      (kind.ofBlock block).getD "") :
    joined read ((stream.blocks.map Prod.snd).filterMap StreamBlock.intoContent) =
      held kind stream := by
  rw [held, joined, List.filterMap_filterMap]
  change joined (fun block : StreamBlock => block.intoContent.bind read) _ = _
  induction stream.blocks.map Prod.snd with
  | nil => rfl
  | cons block rest ih => rw [joined_cons, joined_cons, stored, ih]

/-- The text that is stored of a block is the text it holds. -/
theorem stored_text (block : StreamBlock) :
    (block.intoContent.bind ContentBlock.asText).getD "" = (textKind.ofBlock block).getD "" := by
  cases block with
  | text written =>
      by_cases empty : written.isEmpty <;>
        simp_all [StreamBlock.intoContent, textKind, ContentBlock.asText]
  | thinking thought signature =>
      rw [StreamBlock.intoContent]
      split <;> rfl
  | _ => rfl

/-- The thinking that is stored of a block is the thinking it holds. -/
theorem stored_thinking (block : StreamBlock) :
    (block.intoContent.bind ContentBlock.asThinking).getD "" =
      (thinkingKind.ofBlock block).getD "" := by
  cases block with
  | text written =>
      rw [StreamBlock.intoContent]
      split <;> rfl
  | thinking thought signature =>
      rw [StreamBlock.intoContent]
      split
      · next empty => simp [thinkingKind, String.isEmpty_iff.mp empty.1]
      · rfl
  | _ => rfl

/-- Where blocks come in sequence, what was sent is the text and the thinking of the message. -/
theorem finish_same {parsePayload : String → Option AnthropicStreamEvent} {payloads : List String}
    {reading : Reading AnthropicStream} {choice : Choice}
    (ends : conclude (parser parsePayload) none
      ((⟨new, [], []⟩ : Reading AnthropicStream).takeAll (parser parsePayload)
      payloads) = (reading, .finished (.ok choice)))
    (usual : InSequence [] (reading.payloads.filterMap (event parsePayload))) :
    SameText reading.sent choice.message ∧ SameThinking reading.sent choice.message := by
  obtain ⟨taken, finished⟩ := conclude_finished ends
  obtain ⟨read, ran⟩ := @takeAll_run parsePayload ⟨new, [], []⟩ payloads
  rw [taken] at ran
  subst ran
  have message : choice.message.content =
      (((read.filterMap (event parsePayload)).foldl take new).blocks.map Prod.snd).filterMap
        StreamBlock.intoContent := by
    simp only [parser, finish] at finished
    split at finished
    · cases finished
      rfl
    · cases finished
  have held := fun kind => @held_run kind new (read.filterMap (event parsePayload)) [] rfl usual
  constructor
  · rw [SameText, message, joined_content textKind stored_text, held]
    rfl
  · rw [SameThinking, message, joined_content thinkingKind stored_thinking, held]
    rfl

end Kind

end AnthropicStream

/-- What was streamed is what is stored. -/
theorem streamed_is_stored :
    (∀ parsePayload payloads (reading : Reading AnthropicStream) choice,
      conclude (AnthropicStream.parser parsePayload) none
          ((⟨.new, [], []⟩ : Reading AnthropicStream).takeAll
          (AnthropicStream.parser parsePayload) payloads) = (reading, .finished (.ok choice)) →
        AnthropicStream.InSequence
          [] (reading.payloads.filterMap (AnthropicStream.event parsePayload)) →
          SameText reading.sent choice.message ∧ SameThinking reading.sent choice.message) ∧
    (∀ reader limit newIds payloads pieces choice,
      OpenAiStream.new.read reader limit newIds payloads = some (pieces, .ok choice) →
        SameText pieces choice.message ∧
          ((∀ chunk ∈ OpenAiStream.chunks reader payloads,
                OpenAiStream.thinkingBlocks reader chunk = []) →
            SameThinking pieces choice.message)) ∧
    ∀ reader payloads (reading : Reading GeminiStream) choice,
      conclude (GeminiStream.parser reader) none ((⟨.new, [], []⟩ : Reading GeminiStream).takeAll
          (GeminiStream.parser reader) payloads) = (reading, .finished (.ok choice)) →
        SameText reading.sent choice.message ∧ SameThinking reading.sent choice.message :=
  ⟨fun _ _ _ _ => AnthropicStream.finish_same, fun _ _ _ _ _ _ => OpenAiStream.finish_same _,
    fun _ _ _ _ => GeminiStream.finish_same _⟩

/-- Short names of payloads: thinking and text come in pieces, a second text block follows the
first, a call comes in between, and a delta of no block is ignored. -/
def shortEvent (data : String) : Option AnthropicStreamEvent :=
  List.lookup data [("think", .contentBlockStart 0 .thinking),
    ("be", .contentBlockDelta 0 (.thinking "be")),
    ("cause", .contentBlockDelta 0 (.thinking "cause")), ("write", .contentBlockStart 2 .text),
    ("hel", .contentBlockDelta 2 (.text "hel")), ("lo", .contentBlockDelta 2 (.text "lo")),
    ("call", .contentBlockStart 3 (.toolUse "a" "read_file")),
    ("again", .contentBlockStart 5 .text), ("bye", .contentBlockDelta 5 (.text "bye")),
    ("astray", .contentBlockDelta 1 (.text "lost")), ("stop", .messageStop)]

/-- Reasoning and text come in turns, and a call with the last chunk. -/
def shortChunk : OpenAiReader where
  chunk data := List.lookup data [("be", ⟨[⟨{ reasoningContent := some "be" }, none⟩], none⟩),
    ("hel", ⟨[⟨{ content := some "hel" }, none⟩], none⟩),
    ("cause", ⟨[⟨{ reasoningContent := some "cause" }, none⟩], none⟩),
    ("lo",
      ⟨[⟨{ content := some "lo",
           toolCalls := some [⟨0, some "a", some ⟨some "read_file", some "{}"⟩⟩] },
         some "tool_calls"⟩], none⟩)]
  thinkingBlock _ := none

/-- One chunk has two parts with text and a candidate that does not count, and one is malformed. -/
def shortResponse : GeminiReader where
  chunk data := List.lookup data [
    ("hello",
      ⟨[⟨[{ text := some "hel" },
          { functionCall := some ⟨some "a", "read_file", some (.object [])⟩ },
          { text := some "lo" }], none⟩, ⟨[{ text := some "other" }], none⟩], none⟩),
    ("odd",
      ⟨[⟨[{ text := some "lost" }, { functionCall := some ⟨none, "read_file", none⟩ }], none⟩],
        none⟩),
    ("bye", ⟨[⟨[{ text := some "bye" }], some "STOP"⟩], none⟩)]
  json := ⟨fun _ => none, fun _ => "{}"⟩
  lowercase := id
  newIds _ := 0

/-- What the three servers sent is stored as it was streamed, with its calls. -/
theorem streamed_is_stored_sample :
    (∃ (reading : Reading AnthropicStream) (choice : Choice),
      reading.sent = [.thinking "be", .thinking "cause", .text "hel", .text "lo", .text "bye"] ∧
      choice.message.content = [.thinking "because" none, .text "hello",
          .toolUse "a" "read_file" "{}" none,
        .text "bye"] ∧
      SameText reading.sent choice.message ∧ SameThinking reading.sent choice.message) ∧
    (∃ pieces choice, OpenAiStream.new.read shortChunk ⟨1, by decide⟩ (fun _ => 0)
        ["be", "hel", "not json", "cause", "lo", "[DONE]"] = some (pieces, .ok choice) ∧
      pieces = [.thinking "be", .text "hel", .thinking "cause", .text "lo"] ∧
      choice.message.content = [.thinking "because" none, .text "hello",
          .toolUse "a" "read_file" "{}" none] ∧
      SameText pieces choice.message ∧ SameThinking pieces choice.message) ∧
    ∃ (reading : Reading GeminiStream) (choice : Choice),
      reading.sent = [.text "hel", .text "lo", .text "bye"] ∧
      choice.message.text = some "hellobye" ∧
      SameText reading.sent choice.message ∧ SameThinking reading.sent choice.message := by
  have anthropic := streamed_is_stored.1 shortEvent
    ["think", "be", "cause", "astray", "write", "hel", "lo", "call", "again", "bye", "stop",
      "late"] _ _ rfl
    ⟨by simp, by simp, by simp, by simp, by simp, by simp, by simp, by simp, by simp,
      by simp, trivial⟩
  have openAi := streamed_is_stored.2.1 shortChunk ⟨1, by decide⟩ (fun _ => 0)
    ["be", "hel", "not json", "cause", "lo", "[DONE]"] _ _ rfl
  have gemini := streamed_is_stored.2.2 shortResponse ["hello", "odd", "bye"] _ _ rfl
  exact ⟨⟨_, _, rfl, rfl, anthropic⟩, ⟨_, _, rfl, rfl, rfl, openAi.1, openAi.2 (by decide)⟩,
    ⟨_, _, rfl, rfl, gemini⟩⟩

end Llm

end Openheim
