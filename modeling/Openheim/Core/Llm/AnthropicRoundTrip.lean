import Openheim.Core.Llm.AnthropicRendering
import Openheim.Core.Llm.WireValidity

/-
This file shows that a streamed reply of Anthropic is kept block for block and sent back so, however
it was rendered.
-/

namespace Openheim.Llm

namespace TurnFormat
variable {Part : Type} (format : TurnFormat Part)

/-- Wherever it stands in a conversation, a message of the assistant is sent as one turn with these
parts, or not at all if there are none. -/
def SendsAs (message : Message) (parts : List Part) : Prop :=
  ∀ earlier later, if parts = [] then
      format.convertMessages (earlier ++ message :: later) =
        format.convertMessages (earlier ++ later)
    else ∃ turns, format.convertMessages (earlier ++ message :: later) =
      format.convertMessages earlier ++ ⟨format.assistantRole, parts⟩ :: turns

/-- A result is never merged into a turn before that of another role. -/
theorem mergeResult_after {turn : Turn Part} (other : turn.role ≠ "user")
    (wire turns : List (Turn Part))
    (part : Part) :
    ∃ merged, mergeResult (wire ++ turn :: turns) part = wire ++ turn :: merged := by
  rcases List.eq_nil_or_concat turns with rfl | ⟨init, ⟨role, parts⟩, rfl⟩
  · exact ⟨[⟨"user", [part]⟩], by rw [mergeResult_other other, List.append_assoc]; rfl⟩
  · rw [List.concat_eq_append, ← List.cons_append, ← List.append_assoc]
    by_cases user : role = "user"
    · subst user
      rw [mergeResult_user, List.append_assoc]
      exact ⟨_, rfl⟩
    · rw [mergeResult_other user, List.append_assoc, List.append_assoc]
      exact ⟨_, rfl⟩

/-- A turn of the assistant and what is before it do not change any more. -/
theorem convertMessage_after {turn : Turn Part} (other : turn.role ≠ "user")
    (wire turns : List (Turn Part)) (message : Message) :
    ∃ added, format.convertMessage (wire ++ turn :: turns) message = wire ++ turn :: added := by
  cases role : message.role with
  | tool =>
      simp only [convertMessage, role]
      split
      · exact ⟨turns, rfl⟩
      · exact mergeResult_after other wire turns _
  | assistant =>
      simp only [convertMessage, role]
      split
      · exact ⟨turns, rfl⟩
      · exact ⟨_, List.append_assoc _ _ _⟩
  | user =>
      simp only [convertMessage, role]
      exact ⟨_, List.append_assoc _ _ _⟩
  | system =>
      simp only [convertMessage, role]
      exact ⟨turns, rfl⟩

/-- Later messages are put behind a turn of another role. -/
theorem foldl_after {turn : Turn Part} (other : turn.role ≠ "user") (wire turns : List (Turn Part))
    (messages : List Message) :
    ∃ added, messages.foldl format.convertMessage (wire ++ turn :: turns) =
      wire ++ turn :: added := by
  induction messages generalizing turns with
  | nil => exact ⟨turns, rfl⟩
  | cons message rest ih =>
      obtain ⟨added, converted⟩ := format.convertMessage_after other wire turns message
      rw [List.foldl_cons, converted]
      exact ih added

/-- The parts of a reply are sent as they are stored. -/
theorem sendsAs_assistantParts (content : List ContentBlock) :
    format.SendsAs ⟨.assistant, content⟩ (format.assistantParts content) := by
  intro earlier later
  split
  · next none => simp [convertMessages, convertMessage, none]
  · next some =>
    obtain ⟨turns, kept⟩ :=
      @foldl_after _ format ⟨format.assistantRole, format.assistantParts content⟩
      format.assistantRole_ne (format.convertMessages earlier) [] later
    refine ⟨turns, kept ▸ ?_⟩
    simp [convertMessages, convertMessage, some]

end TurnFormat

namespace AnthropicStream

/-- What an event makes of the block of its index. -/
def BlockEvent.change (block : Option StreamBlock) : BlockEvent → Option StreamBlock
  | .start contentBlock => some (StreamBlock.opened contentBlock)
  | .delta more => block.map fun block => block.apply more

section Take
variable (stream : AnthropicStream)

/-- An event changes the block of its own index only. -/
theorem lookup_take (event : AnthropicStreamEvent) (index : Nat) :
    (stream.take event).blocks.lookup index =
      (BlockEvent.at index event).elim (stream.blocks.lookup index)
        (BlockEvent.change (stream.blocks.lookup index)) := by
  cases event with
  | contentBlockStart other contentBlock =>
      by_cases same : other = index
      · subst same
        simp [take, BlockEvent.at, BlockEvent.change]
      · simp [take, BlockEvent.at, same, SortedMap.lookup_insert_of_ne (Ne.symm same)]
  | contentBlockDelta other more =>
      by_cases same : other = index
      · subst same
        simp [take, BlockEvent.at, BlockEvent.change]
      · simp [take, BlockEvent.at, same, SortedMap.lookup_modify_of_ne (Ne.symm same)]
  | _ => rfl

/-- The block of an index is what the events of that index make of it. -/
theorem lookup_foldl_take (events : List AnthropicStreamEvent) (index : Nat) :
    (events.foldl take stream).blocks.lookup index =
      (events.filterMap (BlockEvent.at index)).foldl BlockEvent.change
        (stream.blocks.lookup index) := by
  induction events generalizing stream with
  | nil => rfl
  | cons event rest ih =>
      rw [List.foldl_cons, ih, lookup_take, List.filterMap_cons]
      cases BlockEvent.at index event with
      | none => rfl
      | some change => rfl

/-- A stream is complete only with its stop event. -/
theorem complete_foldl_take (events : List AnthropicStreamEvent) (goesOn : .messageStop ∉ events) :
    (events.foldl take stream).complete = stream.complete := by
  induction events generalizing stream with
  | nil => rfl
  | cons event rest ih =>
      rw [List.foldl_cons, ih _ fun later => goesOn (List.mem_cons_of_mem _ later)]
      cases event with
      | messageStop => exact absurd List.mem_cons_self goesOn
      | _ => rfl

end Take

namespace ReplyBlock

/-- The block after all of its deltas. -/
def filled : ReplyBlock → StreamBlock
  | .text written => .text written
  | .thinking thought signature => .thinking thought signature
  | .redactedThinking data => .redactedThinking data
  | .toolUse id name arguments => .toolUse id name arguments

/-- Empty text and empty thinking without a signature are dropped, and a call without
arguments gets an empty object. -/
def stored : ReplyBlock → Option ContentBlock
  | .text written => if written = "" then none else some (.text written)
  | .thinking thought signature =>
      if signature ≠ "" then some (.thinking thought (some signature))
      else if thought ≠ "" then some (.thinking thought none)
      else none
  | .redactedThinking data => some (.redactedThinking data)
  | .toolUse id name arguments =>
      some (.toolUse id name (if Lines.isBlank arguments.toList then "{}" else arguments) none)

/-- The JSON object that the model wrote, or an empty one if it wrote none. -/
def writtenObject (json : SerdeJson) (arguments : String) : Json :=
  if Lines.isBlank arguments.toList then .object []
  else ((json.parse arguments).filter Json.isObject).getD (.object [])

/-- Unsigned thinking is not sent back, and arguments are sent as the JSON object that they are. -/
def sentBack (json : SerdeJson) : ReplyBlock → Option AnthropicContentBlock
  | .text written => if written = "" then none else some (.text written)
  | .thinking thought signature => if signature = "" then none
      else some (.thinking thought signature)
  | .redactedThinking data => some (.redactedThinking data)
  | .toolUse id name arguments => some (.toolUse id name (writtenObject json arguments))

/-- The code sends the object that a text is, and an empty one for any other text. -/
theorem toolInput_eq (json : SerdeJson) (arguments : String) :
    toolInput json arguments = ((json.parse arguments).filter Json.isObject).getD (.object []) := by
  rw [toolInput]
  cases json.parse arguments with
  | none => rfl
  | some value => cases value <;> rfl

/-- A kept block is sent back as the block that the model wrote. -/
theorem stored_assistantBlock (json : SerdeJson) (emptyObject : json.parse "{}" = some (.object []))
    (block : ReplyBlock) :
    block.stored.bind (Anthropic.assistantBlock json) = block.sentBack json := by
  cases block with
  | text written =>
      rw [stored, sentBack]
      split
      · rfl
      · next nonempty => simp [Anthropic.assistantBlock, nonempty]
  | thinking thought signature =>
      rw [stored, sentBack]
      by_cases unsigned : signature = ""
      · by_cases unthought : thought = ""
        · simp [unsigned, unthought]
        · simp [unsigned, unthought, Anthropic.assistantBlock]
      · simp [unsigned, Anthropic.assistantBlock]
  | redactedThinking data => rfl
  | toolUse id name arguments =>
      rw [stored, sentBack, Option.bind_some, Anthropic.assistantBlock, toolInput_eq, writtenObject]
      split
      · rw [emptyObject]
        rfl
      · rfl

/-- A block that is filled is stored as it was meant. -/
theorem filled_intoContent (block : ReplyBlock) : block.filled.intoContent = block.stored := by
  cases block with
  | text written => simp [filled, StreamBlock.intoContent, stored]
  | thinking thought signature =>
      by_cases unsigned : signature = ""
      · by_cases unthought : thought = ""
        · simp [filled, StreamBlock.intoContent, stored, unsigned, unthought]
        · simp [filled, StreamBlock.intoContent, stored, unsigned, unthought]
      · simp [filled, StreamBlock.intoContent, stored, unsigned]
  | redactedThinking data => rfl
  | toolUse id name arguments => rfl

/-- A filled block is one that is stored. -/
theorem filled_ne_other (block : ReplyBlock) : block.filled ≠ .other := by
  cases block <;> nofun

end ReplyBlock

section Deltas
variable (deltas : List AnthropicStreamDelta)

theorem pieces_cons (piece : AnthropicStreamDelta → Option String) (delta : AnthropicStreamDelta) :
    pieces piece (delta :: deltas) = (piece delta).getD "" ++ pieces piece deltas := by
  cases found : piece delta with
  | none =>
    rw [pieces, List.filterMap_cons_none found, Option.getD_none, String.empty_append, pieces]
  | some more =>
    rw [pieces, List.filterMap_cons_some found, String.join_cons, Option.getD_some, pieces]

/-- Deltas that only add their pieces to the texts of a block add all of them. -/
theorem foldl_apply {block : String → String → StreamBlock}
    {first second : AnthropicStreamDelta → Option String}
    (grows : ∀ one other delta,
      (block one other).apply delta =
        block (one ++ (first delta).getD "") (other ++ (second delta).getD ""))
    (one other : String) :
    deltas.foldl StreamBlock.apply (block one other) =
      block (one ++ pieces first deltas) (other ++ pieces second deltas) := by
  induction deltas generalizing one other with
  | nil => simp [pieces]
  | cons delta rest ih =>
      rw [List.foldl_cons, grows, ih, pieces_cons, pieces_cons, String.append_assoc,
        String.append_assoc]

/-- The deltas that a block was split into fill it again. -/
theorem foldl_apply_opening {block : ReplyBlock} (split : block.SplitInto deltas) :
    deltas.foldl StreamBlock.apply (StreamBlock.opened block.opening) = block.filled := by
  cases block with
  | text written =>
      have grown := @foldl_apply deltas (fun one _ => .text one) textPiece (fun _ => none)
        (fun one _ delta => (by cases delta <;> simp [StreamBlock.apply, textPiece])) "" ""
      rw [split, String.empty_append] at grown
      exact grown
  | thinking thought signature =>
      have grown := @foldl_apply deltas .thinking thinkingPiece signaturePiece
        (fun one other delta =>
          (by cases delta <;> simp [StreamBlock.apply, thinkingPiece, signaturePiece])) "" ""
      rw [split.1, split.2, String.empty_append, String.empty_append] at grown
      exact grown
  | redactedThinking data =>
      exact @foldl_apply deltas (fun _ _ => .redactedThinking data) (fun _ => none) (fun _ => none)
        (fun _ _ _ => rfl) "" ""
  | toolUse id name arguments =>
      have grown :=
        @foldl_apply deltas (fun one _ => .toolUse id name one) inputPiece (fun _ => none)
        (fun one _ delta => (by cases delta <;> simp [StreamBlock.apply, inputPiece])) "" ""
      rw [split, String.empty_append] at grown
      exact grown

/-- The deltas of a block are applied one after the other. -/
theorem foldl_change_deltas (block : StreamBlock) :
    (deltas.map BlockEvent.delta).foldl BlockEvent.change (some block) =
      some (deltas.foldl StreamBlock.apply block) := by
  induction deltas generalizing block with
  | nil => rfl
  | cons delta rest ih => exact ih (block.apply delta)

end Deltas

/-- A block of an unknown type takes no deltas, and there is no other one at its index. -/
theorem foldl_change_unknown (changes : List BlockEvent)
    (unknown : ∀ contentBlock, .start contentBlock ∈ changes → contentBlock = .other)
    {block : Option StreamBlock} (before : block = none ∨ block = some .other) :
    changes.foldl BlockEvent.change block = none ∨
      changes.foldl BlockEvent.change block = some .other := by
  induction changes generalizing block with
  | nil => exact before
  | cons change rest ih =>
      refine ih (fun contentBlock later => unknown contentBlock (List.mem_cons_of_mem _ later)) ?_
      cases change with
      | start contentBlock =>
          rw [unknown contentBlock List.mem_cons_self]
          exact .inr rfl
      | delta more =>
          rcases before with rfl | rfl
          · exact .inl rfl
          · exact .inr rfl

section Reading
variable {parsePayload : String → Option AnthropicStreamEvent}

/-- Such a payload is taken as its event, and one without an event changes nothing. -/
theorem take_goesOn {data : String} (goesOn : GoesOn parsePayload data)
    (reading : Reading AnthropicStream) :
    ∃ taken, reading.take (parser parsePayload) data = (taken, none) ∧
      taken.parser = (event parsePayload data).elim reading.parser reading.parser.take := by
  rw [GoesOn] at goesOn
  simp only [Reading.take, parser, payload]
  cases carried : event parsePayload data with
  | none => exact ⟨_, rfl, rfl⟩
  | some event =>
      rw [carried, Option.any_some] at goesOn
      cases event with
      | messageStop => cases goesOn
      | error message => cases goesOn
      | _ => exact ⟨_, rfl, rfl⟩

/-- Payloads that do not stop the stream are all taken. -/
theorem takeAll_goesOn {payloads : List String}
    (goesOn : ∀ data ∈ payloads, GoesOn parsePayload data)
    (reading : Reading AnthropicStream) :
    ∃ taken, reading.takeAll (parser parsePayload) payloads = (taken, none) ∧
      taken.parser = (payloads.filterMap (event parsePayload)).foldl take reading.parser := by
  induction payloads generalizing reading with
  | nil => exact ⟨reading, rfl, rfl⟩
  | cons data rest ih =>
      obtain ⟨once, took, parsed⟩ := take_goesOn (goesOn data List.mem_cons_self) reading
      obtain ⟨taken, tookAll, parsedAll⟩ :=
        ih (fun later member => goesOn later (List.mem_cons_of_mem _ member)) once
      refine ⟨taken, ?_, ?_⟩
      · rw [Reading.takeAll, took]
        exact tookAll
      · rw [parsedAll, parsed, List.filterMap_cons]
        cases event parsePayload data with
        | none => rfl
        | some event => rfl

variable {payloads : List String} (stream : AnthropicStream)

/-- Payloads without the end of the reply are finished as what they are. -/
theorem parseStream_goesOn (goesOn : ∀ data ∈ payloads, GoesOn parsePayload data) :
    parseStream (parser parsePayload) stream payloads =
      ((payloads.filterMap (event parsePayload)).foldl take stream).finish := by
  obtain ⟨taken, took, parsed⟩ := takeAll_goesOn goesOn ⟨stream, [], []⟩
  rw [parseStream, took, ← parsed]
  rfl

/-- The end of the reply is finished at once, and nothing after it is read. -/
theorem parseStream_stop (goesOn : ∀ data ∈ payloads, GoesOn parsePayload data) {stop : String}
    (stops : event parsePayload stop = some .messageStop) (after : List String) :
    parseStream (parser parsePayload) stream (payloads ++ stop :: after) =
      (((payloads.filterMap (event parsePayload)).foldl take stream).take .messageStop).finish := by
  obtain ⟨taken, took, parsed⟩ := takeAll_goesOn goesOn ⟨stream, [], []⟩
  rw [parseStream, takeAll_append, took, ← parsed]
  simp only [Reading.takeAll, Reading.take, parser, payload, stops]
  rfl

/-- A stream without its stop event is an error. -/
theorem finish_incomplete {stream : AnthropicStream} (incomplete : stream.complete = false) :
    stream.finish = .error (.incompleteResponse "Anthropic stream ended before message_stop") := by
  simp [finish, incomplete]

end Reading

namespace Rendering
variable {parsePayload : String → Option AnthropicStreamEvent} (rendering : Rendering parsePayload)

/-- The reply when all of its events arrived but the last. -/
def assembled : AnthropicStream := (rendering.before.filterMap (event parsePayload)).foldl take new

/-- A block is assembled as it was filled, whatever came in between. -/
theorem lookup_own {index : Nat} {block : ReplyBlock} (member : (index, block) ∈ rendering.placed) :
    rendering.assembled.blocks.lookup index = some block.filled := by
  obtain ⟨deltas, split, changes⟩ := rendering.own index block member
  rw [assembled, lookup_foldl_take, changes, List.foldl_cons]
  exact (foldl_change_deltas deltas _).trans (congrArg some (foldl_apply_opening deltas split))

/-- Under another index there is nothing to be stored. -/
theorem lookup_unknown {index : Nat} (free : ∀ block, (index, block) ∉ rendering.placed) :
    rendering.assembled.blocks.lookup index = none ∨
      rendering.assembled.blocks.lookup index = some .other := by
  rw [assembled, lookup_foldl_take]
  exact foldl_change_unknown _ (rendering.unknown index free) (.inl rfl)

/-- The blocks that were assembled are the placed ones, but for those of an unknown type. -/
theorem assembled_blocks :
    rendering.assembled.blocks.filter (fun entry => entry.2 ≠ .other) =
      rendering.placed.map (Prod.map id ReplyBlock.filled) := by
  have kept : SortedMap.Ordered (rendering.assembled.blocks.filter fun entry => entry.2 ≠ .other) :=
    rendering.assembled.ordered.filter _
  have named : SortedMap.Ordered (rendering.placed.map (Prod.map id ReplyBlock.filled)) :=
    List.pairwise_map.mpr rendering.ordered
  refine kept.eq_of_mem_iff named fun ⟨index, filled⟩ => ?_
  rw [List.mem_filter, rendering.assembled.ordered.mem_iff, List.mem_map]
  constructor
  · rintro ⟨found, known⟩
    by_cases placed : ∃ block, (index, block) ∈ rendering.placed
    · obtain ⟨block, member⟩ := placed
      rw [rendering.lookup_own member] at found
      cases found
      exact ⟨_, member, rfl⟩
    · rcases rendering.lookup_unknown (not_exists.mp placed) with missing | other
      · rw [missing] at found
        cases found
      · rw [other] at found
        cases found
        simp at known
  · rintro ⟨⟨_, block⟩, member, same⟩
    cases same
    exact ⟨rendering.lookup_own member, decide_eq_true block.filled_ne_other⟩

/-- The assembled blocks are those that were sent, in the order of their indices. -/
theorem assembled_content :
    (rendering.assembled.blocks.map Prod.snd).filterMap StreamBlock.intoContent =
      rendering.blocks.filterMap ReplyBlock.stored := by
  have dropped : ∀ entry : Nat × StreamBlock,
      (if decide (entry.2 ≠ .other) = true then entry.2.intoContent else none) =
          entry.2.intoContent := by
    intro entry
    split
    · rfl
    · next other =>
      rw [not_not.mp (mt decide_eq_true other)]
      rfl
  calc (rendering.assembled.blocks.map Prod.snd).filterMap StreamBlock.intoContent
    _ = rendering.assembled.blocks.filterMap fun entry => entry.2.intoContent := List.filterMap_map
    _ = (rendering.assembled.blocks.filter fun entry => entry.2 ≠ .other).filterMap fun entry =>
          entry.2.intoContent := by
        rw [List.filterMap_filter]
        exact congrArg (List.filterMap · _) (funext fun entry => (dropped entry).symm)
    _ = rendering.placed.filterMap fun entry => entry.2.stored := by
        rw [assembled_blocks, List.filterMap_map]
        exact congrArg (List.filterMap · _) (funext fun entry => entry.2.filled_intoContent)
    _ = rendering.blocks.filterMap ReplyBlock.stored := by
        rw [blocks, List.filterMap_map]
        rfl

/-- A part of the payloads in which the reply does not end comes before its end. -/
theorem cut_before {cut : List String} (isCut : cut <+: rendering.payloads)
    (unended : ∀ data ∈ cut, event parsePayload data ≠ some .messageStop) :
    cut <+: rendering.before := by
  refine List.prefix_of_prefix_length_le isCut (List.prefix_append _ _) (not_lt.mp fun longer => ?_)
  have ends : rendering.before ++ [rendering.stop] <+: cut := by
    refine List.prefix_of_prefix_length_le ?_ isCut (by rw [List.length_append]; exact longer)
    exact ⟨rendering.after, by simp [payloads]⟩
  exact unended rendering.stop (ends.subset (List.mem_append_right _ (List.mem_singleton_self _)))
    rendering.stops

end Rendering

/-- A rendered reply is kept block for block and sent back so, and a part of it
is never taken for a reply. -/
theorem stream_round_trip {parsePayload : String → Option AnthropicStreamEvent} {json : SerdeJson}
    (emptyObject : json.parse "{}" = some (.object [])) (rendering : Rendering parsePayload) :
    ∃ choice, parseStream (parser parsePayload) new rendering.payloads = .ok choice ∧
      choice.message = ⟨.assistant, rendering.blocks.filterMap ReplyBlock.stored⟩ ∧
      (Anthropic.format json).SendsAs choice.message
        (rendering.blocks.filterMap (ReplyBlock.sentBack json)) ∧
      ∀ cut, cut <+: rendering.payloads →
        (∀ data ∈ cut, event parsePayload data ≠ some .messageStop) →
        parseStream (parser parsePayload) new cut =
          .error (.incompleteResponse "Anthropic stream ended before message_stop") := by
  have read : parseStream (parser parsePayload) new rendering.payloads =
      (rendering.assembled.take .messageStop).finish :=
    parseStream_stop new rendering.goesOn rendering.stops rendering.after
  refine ⟨_, read, congrArg (Message.mk .assistant) rendering.assembled_content, ?_, ?_⟩
  · have parts :
        (Anthropic.format json).assistantParts (rendering.blocks.filterMap ReplyBlock.stored) =
        rendering.blocks.filterMap (ReplyBlock.sentBack json) := by
      refine List.filterMap_filterMap.trans (congrArg (List.filterMap · _) (funext fun block => ?_))
      exact block.stored_assistantBlock json emptyObject
    have sends :=
      (Anthropic.format json).sendsAs_assistantParts (rendering.blocks.filterMap ReplyBlock.stored)
    rw [parts, ← rendering.assembled_content] at sends
    exact sends
  · intro cut isCut unended
    have goesOn : ∀ data ∈ cut, GoesOn parsePayload data := fun data member =>
      rendering.goesOn data ((rendering.cut_before isCut unended).subset member)
    rw [parseStream_goesOn new goesOn]
    refine finish_incomplete ((complete_foldl_take new _ fun stopped => ?_).trans rfl)
    obtain ⟨data, member, carried⟩ := List.mem_filterMap.mp stopped
    exact unended data member carried

/-- The deltas of two blocks are mixed, an unknown block starts between, and the
second call has no arguments. -/
def mixedEvents : List (String × AnthropicStreamEvent) :=
  [("\x7b\"type\":\"content_block_start\",\"index\":0,\"content_block\":\x7b\"type\":\"thinking\"\x7d\x7d",
      .contentBlockStart 0 .thinking),
    ("\x7b\"type\":\"ping\"\x7d",
      .other),
    ("\x7b\"type\":\"content_block_delta\",\"index\":0,\"delta\":\x7b\"type\":\"thinking_delta\"," ++
        "\"thinking\":\"fir\"\x7d\x7d",
      .contentBlockDelta 0 (.thinking "fir")),
    ("\x7b\"type\":\"content_block_start\",\"index\":1,\"content_block\":\x7b\"type\":\"server_tool_use\"\x7d\x7d",
      .contentBlockStart 1 .other),
    ("\x7b\"type\":\"content_block_start\",\"index\":2,\"content_block\":\x7b\"type\":\"tool_use\",\"id\":\"a\"," ++
        "\"name\":\"ls\"\x7d\x7d",
      .contentBlockStart 2 (.toolUse "a" "ls")),
    ("\x7b\"type\":\"content_block_delta\",\"index\":2,\"delta\":\x7b\"type\":\"input_json_delta\"," ++
        "\"partial_json\":\"\x7b\\\"path\\\":\"\x7d\x7d",
      .contentBlockDelta 2 (.inputJson "\x7b\"path\":")),
    ("\x7b\"type\":\"content_block_delta\",\"index\":0,\"delta\":\x7b\"type\":\"thinking_delta\"," ++
        "\"thinking\":\"st\"\x7d\x7d",
      .contentBlockDelta 0 (.thinking "st")),
    ("\x7b\"type\":\"content_block_start\",\"index\":3,\"content_block\":\x7b\"type\":\"tool_use\",\"id\":\"b\"," ++
        "\"name\":\"ls\"\x7d\x7d",
      .contentBlockStart 3 (.toolUse "b" "ls")),
    ("\x7b\"type\":\"content_block_delta\",\"index\":2,\"delta\":\x7b\"type\":\"input_json_delta\"," ++
        "\"partial_json\":\"\\\"src\\\"\x7d\"\x7d\x7d",
      .contentBlockDelta 2 (.inputJson "\"src\"\x7d")),
    ("\x7b\"type\":\"content_block_delta\",\"index\":0,\"delta\":\x7b\"type\":\"signature_delta\"," ++
        "\"signature\":\"sig\"\x7d\x7d",
      .contentBlockDelta 0 (.signature "sig")),
    ("\x7b\"type\":\"message_stop\"\x7d",
      .messageStop)]

def mixedPayload (data : String) : Option AnthropicStreamEvent := List.lookup data mixedEvents

/-- One payload is torn. -/
def mixedPayloads : List String := "\x7bnot json" :: (mixedEvents.map Prod.fst).dropLast

/-- The mixed payloads carry the mixed events. -/
theorem mixed_carried :
    mixedPayloads.filterMap (event mixedPayload) = (mixedEvents.map Prod.snd).dropLast := by decide

def mixedRendering : Rendering mixedPayload where
  placed :=
    [(0, .thinking "first" "sig"), (2, .toolUse "a" "ls" "\x7b\"path\":\"src\"\x7d"),
        (3, .toolUse "b" "ls" "")]
  before := mixedPayloads
  stop := "\x7b\"type\":\"message_stop\"\x7d"
  after := []
  ordered := by simp [SortedMap.Ordered]
  goesOn := by unfold GoesOn; decide
  stops := by decide
  own index block member := by
    rcases List.mem_cons.mp member with same | later
    · cases same
      exact ⟨[.thinking "fir", .thinking "st", .signature "sig"], ⟨by decide, by decide⟩,
        by rw [mixed_carried]; rfl⟩
    · rcases List.mem_cons.mp later with same | last
      · cases same
        exact ⟨[.inputJson "\x7b\"path\":", .inputJson "\"src\"\x7d"],
          by unfold ReplyBlock.SplitInto; decide, by rw [mixed_carried]; rfl⟩
      · cases List.mem_singleton.mp last
        exact ⟨[], by rfl, by rw [mixed_carried]; rfl⟩
  unknown index free contentBlock started := by
    rw [mixed_carried, List.mem_filterMap] at started
    obtain ⟨carried, member, same⟩ := started
    have first : (0 : Nat) ≠ index := fun zero => free (.thinking "first" "sig") (by simp [← zero])
    have second : (2 : Nat) ≠ index :=
      fun two => free (.toolUse "a" "ls" "\x7b\"path\":\"src\"\x7d") (by simp [← two])
    have third : (3 : Nat) ≠ index := fun three => free (.toolUse "b" "ls" "") (by simp [← three])
    simp only [mixedEvents, List.map_cons, List.dropLast, List.mem_cons] at member
    rcases member with rfl | rfl | rfl | rfl | rfl | rfl | rfl | rfl | rfl | rfl | none <;>
      simp_all [BlockEvent.at]

def callJson : SerdeJson :=
  ⟨fun text => [("\x7b\x7d", Json.object []),
    ("\x7b\"path\":\"src\"\x7d", .object [("path", .string "src")])].lookup text,
    fun _ => "\x7b\x7d"⟩

/-- The signed thinking and both calls are kept and sent back, and without its last event the same
stream is no reply. -/
theorem stream_round_trip_sample :
    ∃ choice, parseStream (parser mixedPayload) new mixedRendering.payloads = .ok choice ∧
      choice.message = ⟨.assistant, [.thinking "first" (some "sig"),
        .toolUse "a" "ls" "\x7b\"path\":\"src\"\x7d" none, .toolUse "b" "ls" "\x7b\x7d" none]⟩ ∧
      (Anthropic.format callJson).SendsAs choice.message [.thinking "first" "sig",
        .toolUse "a" "ls" (.object [("path", .string "src")]), .toolUse "b" "ls" (.object [])] ∧
      parseStream (parser mixedPayload) new mixedPayloads =
        .error (.incompleteResponse "Anthropic stream ended before message_stop") := by
  obtain ⟨choice, read, kept, sent, cut⟩ :=
    @stream_round_trip mixedPayload callJson rfl mixedRendering
  exact ⟨choice, read, kept, sent, cut mixedPayloads ⟨_, rfl⟩ (by decide)⟩

end AnthropicStream

end Openheim.Llm
