import Openheim.Core.Llm.OpenAiStream
import Openheim.Library.Joined

/-
This file shows when the tool calls of a streamed OpenAI reply are put together, and that they are
exact then: the server chooses the indexes, and they size a vector.
-/

namespace Openheim.Llm

namespace OpenAiStream

def toolCallDeltas (reader : OpenAiReader) (payloads : List String) :
    List OpenAiStreamToolCallDelta :=
  (chunks reader payloads).flatMap OpenAiStreamChunk.toolCalls

/-- The pieces of the call with an index, in the order of their arrival. -/
def ofIndex (index : Nat) (deltas : List OpenAiStreamToolCallDelta) :
    List OpenAiStreamToolCallDelta :=
  deltas.filter fun delta => delta.index.toNat = index

def lastId (own : List OpenAiStreamToolCallDelta) : String :=
  (own.filterMap OpenAiStreamToolCallDelta.id).getLast?.getD ""

def joinedName (own : List OpenAiStreamToolCallDelta) : String :=
  Joined.joined (fun delta => delta.function.bind OpenAiStreamFunctionDelta.name) own

def joinedArguments (own : List OpenAiStreamToolCallDelta) : String :=
  Joined.joined (fun delta => delta.function.bind OpenAiStreamFunctionDelta.arguments) own

/-- The call that its pieces make up. A call without a name is dropped. -/
def assembledCall (uuid : Uuid) (own : List OpenAiStreamToolCallDelta) : Option ToolUseBlock :=
  if joinedName own = "" then none
  else
    some ⟨if lastId own = "" then newToolCallId uuid else lastId own, joinedName own,
      if Lines.isBlank (joinedArguments own).toList then "{}" else joinedArguments own⟩

/-- The calls are those of the indexes that were sent, in the order of the indexes. -/
def Assembles (newIds : Nat → Uuid) (deltas : List OpenAiStreamToolCallDelta)
    (calls : List ToolUseBlock) : Prop :=
  ∃ indexes : List Nat, indexes.Pairwise (· < ·) ∧
    (∀ index, index ∈ indexes ↔ ∃ delta ∈ deltas, delta.index.toNat = index) ∧
    calls = indexes.filterMap fun index => assembledCall (newIds index) (ofIndex index deltas)

section Grow
variable {limit : VecLimit} {index : Nat} {calls grown : List ToolCallAcc}

/-- The calls grow to an index that fits the limit. -/
theorem growCalls_isSome (short : calls.length ≤ limit.calls) :
    (∃ grown, growCalls limit index calls = some grown) ↔ index < limit.calls := by
  unfold growCalls
  split
  · next inside => exact ⟨fun _ => inside.trans_le short, fun _ => ⟨calls, rfl⟩⟩
  · split
    · next fits => exact ⟨fun _ => fits, fun _ => ⟨_, rfl⟩⟩
    · next tooLong => exact ⟨fun ⟨_, found⟩ => (by cases found), fun fits => absurd fits tooLong⟩

/-- The vector keeps its calls and reaches the index. -/
theorem growCalls_spec (grows : growCalls limit index calls = some grown) :
    grown.length = max calls.length (index + 1) ∧
      ∀ other, grown.getD other .default = calls.getD other .default := by
  unfold growCalls at grows
  split at grows
  · next inside =>
    cases grows
    exact ⟨by omega, fun _ => rfl⟩
  · next outside =>
    split at grows
    · cases grows
      refine ⟨by rw [List.length_append, List.length_replicate]; omega, fun other => ?_⟩
      rw [List.getD_eq_getElem?_getD, List.getD_eq_getElem?_getD, List.getElem?_append]
      split
      · rfl
      · next beyond =>
        rw [List.getElem?_replicate, List.getElem?_eq_none (Nat.not_lt.mp beyond)]
        split <;> rfl
    · cases grows

end Grow

section Hold
variable {limit : VecLimit} {deltas : List OpenAiStreamToolCallDelta}
  {calls next : List ToolCallAcc}
  {delta : OpenAiStreamToolCallDelta}

/-- The vector after some deltas: each index holds what its own deltas make of an empty call. -/
structure Holds (limit : VecLimit) (deltas : List OpenAiStreamToolCallDelta)
    (calls : List ToolCallAcc) : Prop where
  short : calls.length ≤ limit.calls
  reaches : ∀ delta ∈ deltas, delta.index.toNat < calls.length
  own : ∀ index, calls.getD index .default = (ofIndex index deltas).foldl ToolCallAcc.apply .default

theorem Holds.new : Holds limit [] [] := ⟨Nat.zero_le _, nofun, fun _ => rfl⟩

/-- A delta is taken when its index fits the limit. -/
theorem takeToolCall_isSome (short : calls.length ≤ limit.calls) :
    (∃ next, takeToolCall limit calls delta = some next) ↔ delta.index.toNat < limit.calls := by
  rw [← growCalls_isSome short]
  simp [takeToolCall]

/-- Taking a delta adds it to the call of its index. -/
theorem Holds.take (holds : Holds limit deltas calls)
    (took : takeToolCall limit calls delta = some next) :
    Holds limit (deltas ++ [delta]) next := by
  have fits : delta.index.toNat < limit.calls := (takeToolCall_isSome holds.short).mp ⟨next, took⟩
  obtain ⟨grown, grows, rfl⟩ := Option.map_eq_some_iff.mp took
  obtain ⟨length, same⟩ := growCalls_spec grows
  have short := holds.short
  refine ⟨by rw [List.length_modify]; omega, fun other member => ?_, fun index => ?_⟩
  · rw [List.length_modify]
    rcases List.mem_append.mp member with old | new
    · have := holds.reaches other old
      omega
    · cases List.mem_singleton.mp new
      omega
  · have before := (same index).trans (holds.own index)
    rw [List.getD_eq_getElem?_getD] at before ⊢
    rw [List.getElem?_modify, ofIndex, List.filter_append, List.foldl_append]
    by_cases this : delta.index.toNat = index
    · have present : index < grown.length := by omega
      rw [List.getElem?_eq_getElem present, Option.getD_some] at before
      simp [this, List.getElem?_eq_getElem present, before, ofIndex]
    · simpa [this, ofIndex] using before

/-- The deltas are taken exactly if the vector can hold all of their indexes. -/
theorem foldlM_takeToolCall (later : List OpenAiStreamToolCallDelta)
    (holds : Holds limit deltas calls) :
    ((∃ last, later.foldlM (takeToolCall limit) calls = some last) ↔
        ∀ delta ∈ later, delta.index.toNat < limit.calls) ∧
      ∀ last, later.foldlM (takeToolCall limit) calls = some last →
        Holds limit (deltas ++ later) last := by
  induction later generalizing deltas calls with
  | nil =>
      refine ⟨⟨fun _ => nofun, fun _ => ⟨calls, rfl⟩⟩, fun last same => ?_⟩
      cases same
      rwa [List.append_nil]
  | cons delta rest ih =>
      rw [List.forall_mem_cons, ← @takeToolCall_isSome limit calls delta holds.short,
        List.foldlM_cons]
      cases took : takeToolCall limit calls delta with
      | none =>
        exact ⟨⟨fun ⟨_, found⟩ => (by cases found), fun ⟨⟨_, found⟩, _⟩ => (by cases found)⟩, nofun⟩
      | some next =>
          obtain ⟨goesOn, held⟩ := ih (holds.take took)
          rw [List.append_assoc] at held
          exact ⟨goesOn.trans ⟨fun rest => ⟨⟨next, rfl⟩, rest⟩, And.right⟩, held⟩

end Hold

section Call
variable (uuid : Uuid) (own : List OpenAiStreamToolCallDelta)

/-- A call has its last id, and the names and arguments of its deltas one after the other. -/
theorem foldl_apply (acc : ToolCallAcc) :
    own.foldl ToolCallAcc.apply acc =
      ⟨(own.filterMap OpenAiStreamToolCallDelta.id).getLast?.getD acc.id,
          acc.name ++ joinedName own,
        acc.args ++ joinedArguments own⟩ := by
  induction own generalizing acc with
  | nil => simp [joinedName, joinedArguments]
  | cons delta rest ih =>
      rw [List.foldl_cons, ih]
      simp only [joinedName, joinedArguments, Joined.joined_cons, ← String.append_assoc]
      congr 1
      cases sent : delta.id with
      | none => rw [List.filterMap_cons_none sent, ToolCallAcc.apply, sent, Option.getD_none]
      | some id =>
          rw [List.filterMap_cons_some sent, ToolCallAcc.apply, sent, List.getLast?_cons,
            Option.getD_some, Option.getD_some]

/-- What an empty call becomes is the call that the deltas make up. -/
theorem foldl_apply_intoToolUse :
    ((own.foldl ToolCallAcc.apply .default).intoToolUse uuid).bind ContentBlock.asToolUse =
      assembledCall uuid own := by
  rw [foldl_apply, ToolCallAcc.intoToolUse, assembledCall]
  simp only [ToolCallAcc.default, String.empty_append, String.isEmpty_iff, lastId]
  split <;> rfl

end Call

section Finish
variable {limit : VecLimit} {deltas : List OpenAiStreamToolCallDelta} {calls : List ToolCallAcc}
  (newIds : Nat → Uuid)

theorem zipIdx_eq_map (calls : List ToolCallAcc) :
    calls.zipIdx = (List.range calls.length).map fun index =>
      (calls.getD index .default, index) := by
  refine List.ext_getElem (by simp) fun index inside _ => ?_
  simp only [List.length_zipIdx] at inside
  simp [inside]

/-- The calls of the message are those of the indexes that were sent. -/
theorem Holds.assembles (holds : Holds limit deltas calls) :
    Assembles newIds deltas ((calls.zipIdx.filterMap fun (acc, position) =>
      acc.intoToolUse (newIds position)).filterMap ContentBlock.asToolUse) := by
  refine ⟨(List.range calls.length).filter fun index => (ofIndex index deltas).isEmpty = false,
    List.pairwise_lt_range.filter _, fun index => ?_, ?_⟩
  · rw [List.mem_filter, List.mem_range, decide_eq_true_iff, List.isEmpty_eq_false_iff_exists_mem]
    constructor
    · rintro ⟨_, delta, member⟩
      have ⟨sent, same⟩ := List.mem_filter.mp member
      exact ⟨delta, sent, of_decide_eq_true same⟩
    · rintro ⟨delta, sent, rfl⟩
      exact ⟨holds.reaches delta sent, delta, List.mem_filter.mpr ⟨sent, decide_eq_true rfl⟩⟩
  · rw [zipIdx_eq_map, List.filterMap_map, List.filterMap_filterMap, List.filterMap_filter]
    refine List.filterMap_congr fun index _ => ?_
    simp only [Function.comp_apply]
    rw [holds.own, foldl_apply_intoToolUse]
    cases none : ofIndex index deltas with
    | nil => rfl
    | cons delta others => rfl

/-- The calls of the message are the assembled ones. -/
theorem assembleContent_toolCalls (thinking : List ContentBlock) (reasoning text : String)
    (toolUses : List ContentBlock) (noCalls : thinking.filterMap ContentBlock.asToolUse = []) :
    (OpenAi.assembleContent thinking reasoning text toolUses).filterMap ContentBlock.asToolUse =
      toolUses.filterMap ContentBlock.asToolUse := by
  unfold OpenAi.assembleContent
  simp only [List.filterMap_append, noCalls, List.nil_append]
  split <;> split <;> rfl

end Finish

section Exact
variable (reader : OpenAiReader) (limit : VecLimit) (newIds : Nat → Uuid) (payloads : List String)

/-- The reply is read exactly if the vector can hold the indexes of all calls, and then it has the
calls that were sent. -/
theorem read_assembles :
    ((∃ outcome, new.read reader limit newIds payloads = some outcome) ↔
        ∀ delta ∈ toolCallDeltas reader payloads, delta.index.toNat < limit.calls) ∧
      ∀ pieces choice, new.read reader limit newIds payloads = some (pieces, .ok choice) →
        Assembles newIds (toolCallDeltas reader payloads) choice.message.toolCalls := by
  obtain ⟨fits, held⟩ := foldlM_takeToolCall (toolCallDeltas reader payloads) (@Holds.new limit)
  refine ⟨?_, fun pieces choice ends => ?_⟩
  · rw [← fits, read_eq, foldlM_take]
    simp [toolCallDeltas, new]
  · obtain ⟨_, calls, taken, message⟩ := read_ok ends
    have noCalls : (assembled reader payloads).thinking.filterMap ContentBlock.asToolUse = [] :=
      foldl_takeContent_filterMap reader new (fun _ _ => rfl) (fun _ => rfl)
        (chunks reader payloads)
    rw [message, Message.toolCalls, assembleContent_toolCalls _ _ _ _ noCalls]
    exact (held calls taken).assembles newIds

/-- Tool calls are assembled without a panic and exactly as they were sent, for the indexes that the
vector can hold and no others. -/
theorem tool_calls_assemble_iff :
    (∃ pieces result, new.read reader limit newIds payloads = some (pieces, result) ∧
        ∀ choice, result = .ok choice →
          Assembles newIds (toolCallDeltas reader payloads) choice.message.toolCalls) ↔
      ∀ delta ∈ toolCallDeltas reader payloads, delta.index.toNat < limit.calls := by
  obtain ⟨fits, exactly⟩ := read_assembles reader limit newIds payloads
  rw [← fits]
  constructor
  · rintro ⟨pieces, result, reads, _⟩
    exact ⟨_, reads⟩
  · rintro ⟨⟨pieces, result⟩, reads⟩
    refine ⟨pieces, result, reads, fun choice ok => ?_⟩
    subst ok
    exact exactly pieces choice reads

end Exact

/-- The largest vector of calls there can be. -/
def largestVec : VecLimit := ⟨128102389400760775, by decide⟩

def greatestIndexText : String :=
  "\x7b\"choices\":[\x7b\"delta\":\x7b\"tool_calls\":[\x7b\"index\":18446744073709551615\x7d]\x7d\x7d]\x7d"

/-- The JSON library reads one chunk, with a piece of the call with the greatest index. -/
def greatestIndex : OpenAiReader where
  chunk data :=
    if data = greatestIndexText then
      some ⟨[⟨{ toolCalls := some [⟨18446744073709551615, none, none⟩] }, none⟩], none⟩
    else none
  thinkingBlock _ := none

/-- The greatest index of a call leaves no place for it. -/
theorem greatest_index_panics :
    ¬∃ pieces result, new.read greatestIndex largestVec (fun _ => 0) [greatestIndexText, "[DONE]"] =
        some (pieces, result) ∧
      ∀ choice, result = .ok choice →
        Assembles (fun _ => 0) (toolCallDeltas greatestIndex [greatestIndexText, "[DONE]"])
          choice.message.toolCalls := by
  rintro ⟨pieces, result, reads, _⟩
  have panics : new.read greatestIndex largestVec (fun _ => 0) [greatestIndexText, "[DONE]"] =
    none := by decide
  cases panics.symm.trans reads

end OpenAiStream

end Openheim.Llm
