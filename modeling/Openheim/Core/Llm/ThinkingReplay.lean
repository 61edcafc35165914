import Openheim.Core.Llm.StreamedIsStored
import Openheim.Core.Llm.ToolCallAssembly
import Openheim.Core.Llm.WireValidity

/-
This file shows that signed and redacted thinking survives the streaming of an OpenAI-compatible
reply and its replay, in either of the formats in which it is streamed.
-/

namespace Openheim.Llm

open Joined

/-- A thinking block that can be replayed. -/
inductive ThoughtBlock where
  | signed (thought signature : String) (present : signature ≠ "")
  | redacted (data : String) (present : data ≠ "")

namespace ThoughtBlock

/-- The block of the stored message. -/
def stored : ThoughtBlock → ContentBlock
  | signed thought signature _ => .thinking thought (some signature)
  | redacted data _ => .redactedThinking data

/-- The block as it is sent back. -/
def sentBack : ThoughtBlock → OpenAiThinkingBlock
  | signed thought signature _ => .thinking thought (some signature)
  | redacted data _ => .redactedThinking data

end ThoughtBlock

/-- What a payload says about thinking: a piece of reasoning, a signature with the text of its
entry, or a redacted block. -/
inductive ThinkingItem where
  | reasoning (piece : String)
  | signature (thought signature : String)
  | redacted (data : String)

def ThinkingItem.asReasoning : ThinkingItem → Option String
  | reasoning piece => some piece
  | _ => none

/-- An entry of `thinking_blocks` without a signature says nothing new, and one of an
unknown type nothing at all. -/
def OpenAiThinkingBlock.item : OpenAiThinkingBlock → Option ThinkingItem
  | .thinking thought (some signature) => if signature.isEmpty then none
      else some (.signature thought signature)
  | .redactedThinking data => if data.isEmpty then none else some (.redacted data)
  | _ => none

/-- Blocks and the reasoning that follows them, rendered as items. The text of a signed block
is the reasoning since the last signature, which the items before already gave; its entry
repeats the text or leaves it out. -/
inductive Renders : String → List ThoughtBlock → String → List ThinkingItem → Prop where
  | remainder (since : String) : Renders since [] since []
  | reasoning {since remainder : String} {blocks : List ThoughtBlock} {items : List ThinkingItem}
      (piece : String)
      (later : Renders (since ++ piece) blocks remainder items) :
      Renders since blocks remainder (.reasoning piece :: items)
  | repeated {since remainder signature : String} {blocks : List ThoughtBlock}
      {items : List ThinkingItem}
      (present : signature ≠ "") (later : Renders "" blocks remainder items) :
      Renders since (.signed since signature present :: blocks) remainder
        (.signature since signature :: items)
  | leftEmpty {since remainder signature : String} {blocks : List ThoughtBlock}
      {items : List ThinkingItem}
      (present : signature ≠ "") (later : Renders "" blocks remainder items) :
      Renders since (.signed since signature present :: blocks) remainder
        (.signature "" signature :: items)
  | redacted {since remainder data : String} {blocks : List ThoughtBlock}
      {items : List ThinkingItem}
      (present : data ≠ "") (later : Renders since blocks remainder items) :
      Renders since (.redacted data present :: blocks) remainder (.redacted data :: items)

namespace OpenAiStream

/-- What a chunk says about thinking: its reasoning comes before its entries. -/
def items (reader : OpenAiReader) (chunk : OpenAiStreamChunk) : List ThinkingItem :=
  chunk.choices.head?.elim [] fun choice =>
    .reasoning (choice.delta.reasoningContent.getD "") ::
      (choice.delta.takeThinkingBlocks reader).filterMap OpenAiThinkingBlock.item

/-- What an item makes of the thinking and of the reasoning since the last signature. -/
def takeItem (thoughts : List ContentBlock × String) : ThinkingItem → List ContentBlock × String
  | .reasoning piece => (thoughts.1, thoughts.2 ++ piece)
  | .signature thought signature =>
      (thoughts.1 ++ [.thinking (if thought.isEmpty then thoughts.2 else thought) (some signature)],
        "")
  | .redacted data => (thoughts.1 ++ [.redactedThinking data], thoughts.2)

section Items
variable (reader : OpenAiReader) (stream : OpenAiStream)

def thoughts : List ContentBlock × String := (stream.thinking, stream.reasoning)

theorem thoughts_thinkingBlock (block : OpenAiThinkingBlock) :
    thoughts (stream.thinkingBlock block) =
      block.item.elim stream.thoughts (takeItem stream.thoughts) := by
  cases block with
  | thinking thought signature =>
      cases signature with
      | none => rfl
      | some signature =>
          by_cases empty : signature.isEmpty <;>
            simp [thinkingBlock, OpenAiThinkingBlock.item, empty, thoughts, takeItem]
  | redactedThinking data =>
      by_cases empty : data.isEmpty <;>
        simp [thinkingBlock, OpenAiThinkingBlock.item, empty, thoughts, takeItem]
  | other => rfl

theorem thoughts_foldl_thinkingBlock (blocks : List OpenAiThinkingBlock) :
    thoughts (blocks.foldl thinkingBlock stream) =
      (blocks.filterMap OpenAiThinkingBlock.item).foldl takeItem stream.thoughts := by
  induction blocks generalizing stream with
  | nil => rfl
  | cons block rest ih =>
      rw [List.foldl_cons, ih, thoughts_thinkingBlock, List.filterMap_cons]
      cases block.item with
      | none => rfl
      | some item => rfl

/-- The thinking of a reply is what its items make of it. -/
theorem thoughts_foldl_takeContent (chunks : List OpenAiStreamChunk) :
    thoughts (chunks.foldl (takeContent reader) stream) =
      (chunks.flatMap (items reader)).foldl takeItem stream.thoughts := by
  induction chunks generalizing stream with
  | nil => rfl
  | cons chunk rest ih =>
      rw [List.foldl_cons, ih, List.flatMap_cons, List.foldl_append]
      congr 1
      unfold takeContent items
      cases chunk.choices with
      | nil => rfl
      | cons choice others => exact thoughts_foldl_thinkingBlock _ _

end Items

/-- Rendered blocks are kept as they were, and what no signature closes is left over. -/
theorem foldl_takeItem {since remainder : String} {blocks : List ThoughtBlock}
    {items : List ThinkingItem}
    (rendered : Renders since blocks remainder items) (kept : List ContentBlock) :
    items.foldl takeItem (kept, since) = (kept ++ blocks.map ThoughtBlock.stored, remainder) := by
  induction rendered generalizing kept with
  | remainder since => rw [List.foldl_nil, List.map_nil, List.append_nil]
  | reasoning piece later ih => exact ih kept
  | repeated present later ih =>
      rw [List.foldl_cons, takeItem]
      have text : ∀ since : String, (if since.isEmpty then since else since) = since := fun since =>
        ite_self since
      rw [text, ih, List.append_assoc]
      rfl
  | leftEmpty present later ih =>
      rw [List.foldl_cons, takeItem, if_pos (by decide), ih, List.append_assoc]
      rfl
  | redacted present later ih =>
      rw [List.foldl_cons, takeItem, ih, List.append_assoc]
      rfl

/-- No reasoning is lost or kept twice. -/
theorem joined_stored {since remainder : String} {blocks : List ThoughtBlock}
    {items : List ThinkingItem} (rendered : Renders since blocks remainder items) :
    joined ContentBlock.asThinking (blocks.map ThoughtBlock.stored) ++ remainder =
      since ++ joined ThinkingItem.asReasoning items := by
  induction rendered with
  | remainder since => simp
  | reasoning piece later ih => simpa [ThinkingItem.asReasoning, String.append_assoc] using ih
  | repeated present later ih =>
      simpa [ThinkingItem.asReasoning, ThoughtBlock.stored, ContentBlock.asThinking,
        String.append_assoc] using ih
  | leftEmpty present later ih =>
      simpa [ThinkingItem.asReasoning, ThoughtBlock.stored, ContentBlock.asThinking,
        String.append_assoc] using ih
  | redacted present later ih =>
      simpa [ThinkingItem.asReasoning, ThoughtBlock.stored, ContentBlock.asThinking] using ih

theorem item_asReasoning (block : OpenAiThinkingBlock) :
    block.item.bind ThinkingItem.asReasoning = none := by
  cases block with
  | thinking thought signature =>
      cases signature with
      | none => rfl
      | some signature =>
        by_cases empty : signature.isEmpty <;>
          simp [OpenAiThinkingBlock.item, empty, ThinkingItem.asReasoning]
  | redactedThinking data =>
      by_cases empty : data.isEmpty <;>
        simp [OpenAiThinkingBlock.item, empty, ThinkingItem.asReasoning]
  | other => rfl

theorem joined_items (reader : OpenAiReader) (chunks : List OpenAiStreamChunk) :
    joined ThinkingItem.asReasoning (chunks.flatMap (items reader)) =
      joined LlmChunk.asThinking (chunks.flatMap sent) := by
  induction chunks with
  | nil => rfl
  | cons chunk rest ih =>
      have entries : ∀ blocks : List OpenAiThinkingBlock,
          joined ThinkingItem.asReasoning (blocks.filterMap OpenAiThinkingBlock.item) = "" := by
        intro blocks
        rw [joined, List.filterMap_filterMap]
        simp [item_asReasoning]
      rw [List.flatMap_cons, List.flatMap_cons, joined_append, joined_append, ih, items, sent]
      cases chunk.choices.head? with
      | none => rfl
      | some choice => simp [ThinkingItem.asReasoning, entries]

section Complete
variable {reader : OpenAiReader} {limit : VecLimit} {payloads : List String}

/-- The end marker or a finish reason was sent. -/
def Complete (reader : OpenAiReader) (payloads : List String) : Prop :=
  "[DONE]" ∈ payloads ∨
    ∃ chunk ∈ chunks reader payloads, ∃ choice, chunk.choices.head? = some choice ∧
      choice.finishReason ≠ none

theorem foldl_thinkingBlock_finishReason (stream : OpenAiStream)
    (blocks : List OpenAiThinkingBlock) :
    (blocks.foldl thinkingBlock stream).finishReason = stream.finishReason := by
  induction blocks generalizing stream with
  | nil => rfl
  | cons block rest ih =>
      rw [List.foldl_cons, ih]
      unfold thinkingBlock
      split
      · split <;> rfl
      · split <;> rfl
      · rfl

/-- A finish reason is kept until another one replaces it. -/
theorem foldl_takeContent_finishReason (chunks : List OpenAiStreamChunk) (stream : OpenAiStream) :
    (stream.finishReason ≠ none ∨
        ∃ chunk ∈ chunks, ∃ choice, chunk.choices.head? = some choice ∧
          choice.finishReason ≠ none) →
      (chunks.foldl (takeContent reader) stream).finishReason ≠ none := by
  induction chunks generalizing stream with
  | nil => simp
  | cons chunk rest ih =>
      intro given
      refine ih _ ?_
      have once : (stream.takeContent reader chunk).finishReason =
          ((chunk.choices.head?.bind OpenAiStreamChoice.finishReason).map
              OpenAi.mapFinishReason).orElse fun _ =>
            stream.finishReason := by
        unfold takeContent
        cases chunk.choices with
        | nil => rfl
        | cons choice others => exact foldl_thinkingBlock_finishReason _ _
      rw [once]
      rcases given with kept | ⟨sender, member, choice, first, sent⟩
      · left
        cases chunk.choices.head?.bind OpenAiStreamChoice.finishReason with
        | none => exact kept
        | some reason => nofun
      · rcases List.mem_cons.mp member with rfl | later
        · left
          obtain ⟨reason, found⟩ := Option.ne_none_iff_exists'.mp sent
          rw [first, Option.bind_some, found]
          nofun
        · exact .inr ⟨sender, later, choice, first, sent⟩

/-- A complete reply whose calls fit is finished. -/
theorem read_complete (newIds : Nat → Uuid) (complete : Complete reader payloads)
    (fits : ∀ delta ∈ toolCallDeltas reader payloads, delta.index.toNat < limit.calls) :
    ∃ pieces choice, new.read reader limit newIds payloads = some (pieces, .ok choice) := by
  obtain ⟨⟨pieces, result⟩, reads⟩ := (read_assembles reader limit newIds payloads).1.mpr fits
  rw [reads]
  cases result with
  | ok choice => exact ⟨pieces, choice, rfl⟩
  | error error =>
      rw [read_eq, foldlM_take, Option.map_map] at reads
      obtain ⟨calls, _, finished⟩ := Option.map_eq_some_iff.mp reads
      have finished := (Prod.mk.inj finished).2
      unfold finish at finished
      split at finished
      · next cut =>
        rcases complete with marker | reason
        · exact absurd (by simp [ended, marker]) cut.1
        · exact absurd (Option.isNone_iff_eq_none.mp cut.2)
            (foldl_takeContent_finishReason (chunks reader payloads) new (.inr reason))
      · cases finished

end Complete

end OpenAiStream

namespace OpenAi

/-- After the last message of the user the thinking is replayed. -/
theorem toolLoopStart_le {earlier later : List Message}
    (inLoop : ∀ message ∈ later, message.role ≠ .user) :
    toolLoopStart (earlier ++ later) true ≤ earlier.length := by
  have passed : later.length ≤ (earlier ++ later).reverse.findIdx fun message =>
      message.role = .user := by
    rw [List.reverse_append, List.findIdx_append, List.length_reverse]
    have none : later.reverse.findIdx (fun message => message.role = .user) = later.length := by
      rw [← List.length_reverse, List.findIdx_eq_length]
      intro message member
      exact decide_eq_false (inLoop message (List.mem_reverse.mp member))
    rw [none, if_neg (Nat.lt_irrefl _)]
    exact Nat.le_add_left _ _
  rw [toolLoopStart, if_pos rfl, List.length_append]
  omega

variable {message : Message} {earlier later : List Message}

/-- A message of the current tool loop is sent with its signed thinking. -/
theorem convertMessages_inLoop (assistant : message.role = .assistant)
    (inLoop : ∀ message ∈ later, message.role ≠ .user)
    (worth : message.text ≠ none ∨ message.toolCalls ≠ []) :
    ∃ calls after, convertMessages (earlier ++ message :: later) true =
      convertFrom (toolLoopStart (earlier ++ message :: later) true) 0 earlier ++
        ⟨"assistant", message.text.map .text, calls, none, signedThinking message⟩ :: after := by
  have within : toolLoopStart (earlier ++ message :: later) true ≤ earlier.length := by
    refine toolLoopStart_le fun other member => ?_
    rcases List.mem_cons.mp member with rfl | member
    · rw [assistant]
      decide
    · exact inLoop other member
  have sent : ¬(message.text.isNone ∧ message.toolCalls.isEmpty) := by
    rintro ⟨noText, noCalls⟩
    rcases worth with text | calls
    · exact text (Option.isNone_iff_eq_none.mp noText)
    · exact calls (List.isEmpty_iff.mp noCalls)
  rw [convertMessages, convertFrom_append, Nat.zero_add, convertFrom, decide_eq_true within,
    convertMessage, assistant]
  dsimp only
  rw [if_neg sent]
  exact ⟨_, _, rfl⟩

end OpenAi

section Survives
variable {reader : OpenAiReader} {limit : VecLimit} {payloads : List String}
  {blocks : List ThoughtBlock}
  {remainder : String}

def isThought : ContentBlock → Bool
  | .thinking _ _ | .redactedThinking _ => true
  | _ => false

theorem thinkingBlock_stored (block : ThoughtBlock) :
    OpenAi.thinkingBlock block.stored = some block.sentBack := by
  cases block <;> rfl

/-- The signed and redacted blocks of such a content are sent back as they were. -/
theorem signedThinking_content {message : Message} {rest : List ContentBlock}
    (content : message.content = blocks.map ThoughtBlock.stored ++
      (if remainder.isEmpty then [] else [.thinking remainder none]) ++ rest)
    (other : ∀ block ∈ rest, isThought block = false) :
    OpenAi.signedThinking message = if blocks = [] then none
      else some (blocks.map ThoughtBlock.sentBack) := by
  have kept : message.content.filterMap OpenAi.thinkingBlock =
      blocks.map ThoughtBlock.sentBack := by
    have unsigned :
        (if remainder.isEmpty then [] else [ContentBlock.thinking remainder none]).filterMap
        OpenAi.thinkingBlock = [] := by split <;> rfl
    have silent : rest.filterMap OpenAi.thinkingBlock = [] := by
      rw [List.filterMap_eq_nil_iff]
      intro block member
      have := other block member
      cases block <;> first | rfl | cases this
    rw [content, List.filterMap_append, List.filterMap_append, unsigned, silent, List.append_nil,
      List.append_nil, List.filterMap_map]
    simp [thinkingBlock_stored]
  rw [OpenAi.signedThinking, kept]
  cases blocks <;> rfl

/-- Signed and redacted thinking is stored block for block, with the reasoning that
no signature closes after it, and the message is sent back with exactly these
blocks while its tool loop lasts. -/
theorem thinking_survives (newIds : Nat → Uuid)
    (rendered : Renders "" blocks remainder
      ((OpenAiStream.chunks reader payloads).flatMap (OpenAiStream.items reader)))
    (complete : OpenAiStream.Complete reader payloads)
    (fits : ∀ delta ∈ OpenAiStream.toolCallDeltas reader payloads,
      delta.index.toNat < limit.calls) :
    ∃ pieces choice, OpenAiStream.new.read reader limit newIds payloads =
      some (pieces, .ok choice) ∧
      (∃ rest, choice.message.content = blocks.map ThoughtBlock.stored ++
          (if remainder.isEmpty then [] else [.thinking remainder none]) ++ rest ∧
        ∀ block ∈ rest, isThought block = false) ∧
      SameThinking pieces choice.message ∧
      ∀ earlier later, (∀ message ∈ later, message.role ≠ Role.user) →
        (choice.message.text ≠ none ∨ choice.message.toolCalls ≠ []) →
          ∃ calls after, OpenAi.convertMessages (earlier ++ choice.message :: later) true =
            OpenAi.convertFrom (OpenAi.toolLoopStart (earlier ++ choice.message :: later) true)
              0 earlier ++
              ⟨"assistant", choice.message.text.map .text, calls, none,
                if blocks = [] then none
                else some (blocks.map ThoughtBlock.sentBack)⟩ :: after := by
  obtain ⟨pieces, choice, reads⟩ := OpenAiStream.read_complete newIds complete fits
  refine ⟨pieces, choice, reads, ?_⟩
  obtain ⟨rfl, calls, _, message⟩ := OpenAiStream.read_ok reads
  have thoughts :=
    OpenAiStream.thoughts_foldl_takeContent reader .new (OpenAiStream.chunks reader payloads)
  rw [show OpenAiStream.thoughts .new = ([], "") from rfl,
    OpenAiStream.foldl_takeItem rendered] at thoughts
  obtain ⟨thinking, reasoning⟩ := Prod.mk.inj thoughts
  rw [OpenAiStream.assembled, thinking, reasoning, List.nil_append] at message
  have content := congrArg Message.content message
  rw [OpenAi.assembleContent, List.append_assoc] at content
  have others : ∀ block ∈ (if (OpenAiStream.assembled reader payloads).text.isEmpty then []
      else [ContentBlock.text (OpenAiStream.assembled reader payloads).text]) ++
        calls.zipIdx.filterMap fun call => call.1.intoToolUse (newIds call.2),
            isThought block = false := by
    intro block member
    rcases List.mem_append.mp member with text | call
    · split at text
      · cases text
      · rw [List.mem_singleton.mp text]
        rfl
    · obtain ⟨acc, _, made⟩ := List.mem_filterMap.mp call
      simp only [ToolCallAcc.intoToolUse] at made
      split at made
      · cases made
      · cases made
        rfl
  refine ⟨⟨_, content, others⟩, ?_, fun earlier later inLoop worth => ?_⟩
  · have noCalls :=
      @OpenAiStream.joined_toolUses ContentBlock.asThinking (fun _ _ _ _ => rfl) newIds calls
    rw [SameThinking, message, OpenAiStream.joined_assembleContent_thinking, noCalls,
      OpenAiStream.joined_stored rendered, OpenAiStream.joined_items, String.empty_append,
        String.append_empty]
  · rw [← signedThinking_content content others]
    exact OpenAi.convertMessages_inLoop (by rw [message]) inLoop worth

end Survives

/-- A chunk with one choice. -/
def oneChoice (delta : OpenAiStreamDelta) (finishReason : Option String) : OpenAiStreamChunk :=
  ⟨[⟨delta, finishReason⟩], none⟩

/-- Entries stand for what the JSON library makes of them: one is not signed, one is malformed, one
repeats its text and one leaves it out. -/
def twoFormats : OpenAiReader where
  chunk data := List.lookup data [
    ("one", oneChoice ⟨none, some "be", some (.array [.string "unsigned"]), none, none⟩ none),
    ("two", oneChoice ⟨none, some "cause", some (.array [.string "repeated", .string "odd"]), none,
      none⟩ none),
    ("three", oneChoice ⟨none, some "so", none,
      some (.object [("thinking_blocks", .array [.string "redacted", .string "leftEmpty"])]),
      none⟩ none),
    ("four", oneChoice ⟨some "hello", some "more", none, none,
      some [⟨0, some "a", some ⟨some "read_file", some "{}"⟩⟩]⟩ (some "tool_calls"))]
  thinkingBlock entry := match entry with
    | .string "unsigned" => some (.thinking "be" none)
    | .string "repeated" => some (.thinking "because" (some "first"))
    | .string "redacted" => some (.redactedThinking "secret")
    | .string "leftEmpty" => some (.thinking "" (some "second"))
    | _ => none

def twoFormatsPayloads : List String := ["one", "two", "not json", "three", "four"]

/-- The reply of the sample, and the same reply sent back with the result of its call. -/
theorem thinking_survives_sample :
    ∃ pieces choice, OpenAiStream.new.read twoFormats ⟨1, by decide⟩ (fun _ => 0)
        twoFormatsPayloads =
        some (pieces, .ok choice) ∧
      SameThinking pieces choice.message ∧
      choice.message.content = [.thinking "because" (some "first"), .redactedThinking "secret",
        .thinking "so" (some "second"), .thinking "more" none] ++
          [.text "hello", .toolUse "a" "read_file" "{}" none] ∧
      ∃ first calls after, OpenAi.convertMessages
          ([.ofUser "hi"] ++ choice.message :: [.toolResult "a" "read_file" "text" false]) true =
        first ++ ⟨"assistant", some (.text "hello"), calls, none,
            some [.thinking "because" (some "first"),
          .redactedThinking "secret", .thinking "so" (some "second")]⟩ :: after := by
  have rendered : Renders "" [.signed "because" "first" (by decide), .redacted "secret" (by decide),
      .signed "so" "second" (by decide)] "more"
      ((OpenAiStream.chunks twoFormats twoFormatsPayloads).flatMap
          (OpenAiStream.items twoFormats)) :=
    .reasoning "be" (.reasoning "cause" (.repeated _
      (.reasoning "so" (.redacted _ (.leftEmpty _ (.reasoning "more" (.remainder "more")))))))
  have finished : OpenAiStream.Complete twoFormats twoFormatsPayloads :=
    .inr ⟨_,
      List.mem_cons_of_mem _ (List.mem_cons_of_mem _ (List.mem_cons_of_mem _ List.mem_cons_self)),
      _, rfl, by decide⟩
  obtain ⟨pieces, choice, reads, -, same, back⟩ :=
    @thinking_survives twoFormats ⟨1, by decide⟩ twoFormatsPayloads _ _ (fun _ => 0) rendered
      finished (by decide)
  have message : choice.message.content = [.thinking "because" (some "first"),
      .redactedThinking "secret", .thinking "so" (some "second"), .thinking "more" none] ++
        [.text "hello", .toolUse "a" "read_file" "{}" none] := by
    cases reads
    rfl
  have text : choice.message.text = some "hello" := by
    rw [Message.text, message]
    rfl
  obtain ⟨calls, after, sent⟩ := back [.ofUser "hi"] [.toolResult "a" "read_file" "text" false]
    (by simp [Message.toolResult]) (.inl (by rw [text]; exact Option.some_ne_none _))
  rw [text] at sent
  exact ⟨pieces, choice, reads, same, message, _, calls, after, sent⟩

end Openheim.Llm
