import Openheim.Core.Llm.AnthropicStream

/-
This file says what it is to render the blocks of a reply as an event stream of Anthropic. A
rendering may split a block in any way, and mix the events of blocks with others.
-/

namespace Openheim.Llm

namespace AnthropicStream

/-- What happens to the block of one index. -/
inductive BlockEvent where
  | start (contentBlock : AnthropicStreamContentBlock)
  | delta (delta : AnthropicStreamDelta)

def BlockEvent.at (index : Nat) : AnthropicStreamEvent → Option BlockEvent
  | .contentBlockStart other contentBlock => if other = index then
      some (.start contentBlock) else none
  | .contentBlockDelta other more => if other = index then some (.delta more) else none
  | _ => none

/-- A content block of a reply as the model wrote it. Thinking that is not
signed has the empty signature. -/
inductive ReplyBlock where
  | text (text : String)
  | thinking (thinking signature : String)
  | redactedThinking (data : String)
  | toolUse (id name arguments : String)
  deriving DecidableEq, Repr

/-- The text of the deltas that a choice finds, put together. -/
def pieces (piece : AnthropicStreamDelta → Option String)
    (deltas : List AnthropicStreamDelta) : String :=
  String.join (deltas.filterMap piece)

def textPiece : AnthropicStreamDelta → Option String
  | .text text => some text
  | _ => none

def thinkingPiece : AnthropicStreamDelta → Option String
  | .thinking thinking => some thinking
  | _ => none

def signaturePiece : AnthropicStreamDelta → Option String
  | .signature signature => some signature
  | _ => none

def inputPiece : AnthropicStreamDelta → Option String
  | .inputJson partialJson => some partialJson
  | _ => none

namespace ReplyBlock

/-- The block as its start announces it. -/
def opening : ReplyBlock → AnthropicStreamContentBlock
  | .text _ => .text
  | .thinking _ _ => .thinking
  | .redactedThinking data => .redactedThinking data
  | .toolUse id name _ => .toolUse id name

/-- The pieces of the deltas are the block. A delta that does not fit its type, as one
of an unknown type, has none. -/
def SplitInto : ReplyBlock → List AnthropicStreamDelta → Prop
  | .text written, deltas => pieces textPiece deltas = written
  | .thinking thought signature, deltas =>
      pieces thinkingPiece deltas = thought ∧ pieces signaturePiece deltas = signature
  | .redactedThinking _, _ => True
  | .toolUse _ _ arguments, deltas => pieces inputPiece deltas = arguments

end ReplyBlock

/-- The end of the reply, or an error that is reported instead. -/
def isLast : AnthropicStreamEvent → Bool
  | .messageStop | .error _ => true
  | _ => false

/-- The reply goes on after the payload. -/
def GoesOn (parsePayload : String → Option AnthropicStreamEvent) (data : String) : Prop :=
  (event parsePayload data).any isLast = false

/-- Payloads that render a list of blocks. A block is placed at an index of its own: it starts
there, and the deltas of this index split it. At every other index only blocks of unknown types
start. Other events and payloads without an event may stand between, and anything after the end. -/
structure Rendering (parsePayload : String → Option AnthropicStreamEvent) where
  placed : List (Nat × ReplyBlock)
  before : List String
  stop : String
  after : List String
  ordered : SortedMap.Ordered placed
  goesOn : ∀ data ∈ before, GoesOn parsePayload data
  stops : event parsePayload stop = some .messageStop
  own : ∀ index block, (index, block) ∈ placed → ∃ deltas, block.SplitInto deltas ∧
    (before.filterMap (event parsePayload)).filterMap (BlockEvent.at index) =
      .start block.opening :: deltas.map .delta
  unknown : ∀ index, (∀ block, (index, block) ∉ placed) → ∀ contentBlock,
    .start contentBlock ∈ (before.filterMap (event parsePayload)).filterMap (BlockEvent.at index) →
      contentBlock = .other

namespace Rendering
variable {parsePayload : String → Option AnthropicStreamEvent} (rendering : Rendering parsePayload)

def blocks : List ReplyBlock := rendering.placed.map Prod.snd

def payloads : List String := rendering.before ++ rendering.stop :: rendering.after

end Rendering

section Sequential

/-- The usual order of a stream: one block after the other, each with its deltas and a
stop, which is not handled. -/
def sequential (index : Nat) : List (ReplyBlock × List AnthropicStreamDelta) →
    List AnthropicStreamEvent
  | [] => []
  | (block, deltas) :: rest =>
      .contentBlockStart index block.opening :: deltas.map (.contentBlockDelta index) ++
        .other :: sequential (index + 1) rest

/-- The index of a block is its position in the reply. -/
def placedFrom (index : Nat) : List (ReplyBlock × List AnthropicStreamDelta) →
    List (Nat × ReplyBlock)
  | [] => []
  | (block, _) :: rest => (index, block) :: placedFrom (index + 1) rest

variable {index other : Nat} {pieces : List (ReplyBlock × List AnthropicStreamDelta)}

/-- Blocks are placed from an index on. -/
theorem le_of_placedFrom {entry : Nat × ReplyBlock} (member : entry ∈ placedFrom index pieces) :
    index ≤ entry.1 := by
  induction pieces generalizing index with
  | nil => cases member
  | cons piece rest ih =>
      rcases List.mem_cons.mp member with rfl | later
      · exact le_rfl
      · exact (Nat.le_succ index).trans (ih later)

/-- Blocks are placed in the order of their indices. -/
theorem placedFrom_ordered : SortedMap.Ordered (placedFrom index pieces) := by
  induction pieces generalizing index with
  | nil => exact List.Pairwise.nil
  | cons piece rest ih => exact List.pairwise_cons.mpr ⟨fun _ later => le_of_placedFrom later, ih⟩

/-- Every block is placed. -/
theorem placedFrom_blocks : (placedFrom index pieces).map Prod.snd = pieces.map Prod.fst := by
  induction pieces generalizing index with
  | nil => rfl
  | cons piece rest ih => exact congrArg (piece.1 :: ·) ih

section Block
variable (contentBlock : AnthropicStreamContentBlock) (deltas : List AnthropicStreamDelta)

/-- The events of a block are those of its index. -/
theorem block_at :
    (.contentBlockStart index contentBlock :: deltas.map (.contentBlockDelta index)).filterMap
    (BlockEvent.at index) = .start contentBlock :: deltas.map .delta := by
  have start : BlockEvent.at index (.contentBlockStart index contentBlock) =
    some (.start contentBlock) := if_pos rfl
  rw [List.filterMap_cons_some start, List.filterMap_map, ← List.filterMap_eq_map]
  exact congrArg (_ :: List.filterMap · deltas) (funext fun more => if_pos rfl)

/-- The events of another block have another index. -/
theorem block_at_other (different : other ≠ index) :
    (.contentBlockStart other contentBlock :: deltas.map (.contentBlockDelta other)).filterMap
      (BlockEvent.at index) = [] := by
  have start : BlockEvent.at index (.contentBlockStart other contentBlock) = none :=
    if_neg different
  rw [List.filterMap_cons_none start, List.filterMap_map, List.filterMap_eq_nil_iff]
  exact fun more _ => if_neg different

end Block

/-- An index without a block has no events. -/
theorem sequential_at_free (free : ∀ block, (index, block) ∉ placedFrom other pieces) :
    (sequential other pieces).filterMap (BlockEvent.at index) = [] := by
  induction pieces generalizing other with
  | nil => rfl
  | cons piece rest ih =>
      have different : other ≠ index := fun same => free piece.1 (same ▸ List.mem_cons_self)
      have later := ih fun block member => free block (List.mem_cons_of_mem _ member)
      rw [sequential, List.filterMap_append, block_at_other _ _ different,
        List.filterMap_cons_none rfl, later]
      rfl

/-- The events of an index are those of the block there. -/
theorem sequential_at {block : ReplyBlock} (member : (index, block) ∈ placedFrom other pieces) :
    ∃ deltas, (block, deltas) ∈ pieces ∧
      (sequential other pieces).filterMap (BlockEvent.at index) =
        .start block.opening :: deltas.map .delta := by
  induction pieces generalizing other with
  | nil => cases member
  | cons piece rest ih =>
      rcases List.mem_cons.mp member with same | later
      · cases same
        have free : ∀ block, (index, block) ∉ placedFrom (index + 1) rest := fun block placed =>
          absurd (le_of_placedFrom placed) (Nat.not_succ_le_self index)
        refine ⟨piece.2, List.mem_cons_self, ?_⟩
        rw [sequential, List.filterMap_append, block_at, List.filterMap_cons_none rfl,
          sequential_at_free free, List.append_nil]
      · have different : other ≠ index := Nat.ne_of_lt (le_of_placedFrom later)
        obtain ⟨deltas, found, changes⟩ := ih later
        refine ⟨deltas, List.mem_cons_of_mem _ found, ?_⟩
        rw [sequential, List.filterMap_append, block_at_other _ _ different,
          List.filterMap_cons_none rfl, changes]
        rfl

/-- No event of a block ends the stream. -/
theorem sequential_goesOn {carried : AnthropicStreamEvent}
    (member : carried ∈ sequential index pieces) :
    isLast carried = false := by
  induction pieces generalizing index with
  | nil => cases member
  | cons piece rest ih =>
      rcases List.mem_append.mp member with own | later
      · rcases List.mem_cons.mp own with rfl | delta
        · rfl
        · obtain ⟨more, _, rfl⟩ := List.mem_map.mp delta
          rfl
      · rcases List.mem_cons.mp later with rfl | rest
        · rfl
        · exact ih rest

/-- Every list of blocks, split into deltas in any way, has a rendering. -/
theorem exists_rendering {parsePayload : String → Option AnthropicStreamEvent}
    {print : AnthropicStreamEvent → String}
    (printed : ∀ carried, event parsePayload (print carried) = some carried)
    (split : ∀ piece ∈ pieces, piece.1.SplitInto piece.2) :
    ∃ rendering : Rendering parsePayload, rendering.blocks = pieces.map Prod.fst ∧
      rendering.payloads = (sequential 0 pieces ++ [AnthropicStreamEvent.messageStop]).map
        print := by
  have events : ((sequential 0 pieces).map print).filterMap (event parsePayload) =
      sequential 0 pieces := by
    rw [List.filterMap_map]
    exact (congrArg (List.filterMap · _) (funext printed)).trans List.filterMap_some
  refine ⟨⟨placedFrom 0 pieces, (sequential 0 pieces).map print, print .messageStop, [],
    placedFrom_ordered, ?_, printed _, ?_, ?_⟩, placedFrom_blocks, by simp [Rendering.payloads]⟩
  · intro data member
    obtain ⟨carried, among, rfl⟩ := List.mem_map.mp member
    rw [GoesOn, printed]
    exact sequential_goesOn among
  · intro index block member
    obtain ⟨deltas, found, changes⟩ := sequential_at member
    rw [events]
    exact ⟨deltas, split _ found, changes⟩
  · intro index free contentBlock started
    rw [events, sequential_at_free free] at started
    cases started

end Sequential

end AnthropicStream

end Openheim.Llm
