import Openheim.Core.Llm.Sse

/-
This file shows that the payloads of a stream and the reply read from it do not depend on where its
chunks end.
-/

namespace Openheim.Llm

/-- The payloads of all lines that are complete. -/
def linePayloads (bytes : List UInt8) : List String :=
  (Framing.records newline bytes).filterMap fun line => linePayload (line ++ [newline])

theorem linePayloads_append (first second : List UInt8) :
    linePayloads (first ++ second) =
      linePayloads first ++ linePayloads (Framing.unfinished newline first ++ second) := by
  unfold linePayloads
  rw [Framing.records_append, List.filterMap_append]

theorem linePayloads_unfinished (bytes : List UInt8) :
    linePayloads (Framing.unfinished newline bytes) = [] := by
  unfold linePayloads Framing.records
  rw [Framing.unfinished_unfinished]
  rfl

section Decoder
variable {decoder left : SseDecoder} {line rest : List UInt8}

theorem linePayloads_of_pop (popped : Framing.pop newline decoder.buf = some (line, rest)) :
    linePayloads decoder.buf = (linePayload (line ++ [newline])).toList ++ linePayloads rest := by
  unfold linePayloads
  rw [Framing.records_of_pop popped, List.filterMap_cons]
  cases linePayload (line ++ [newline]) with
  | none => rfl
  | some data => rfl

/-- The decoder hands out the first payload and keeps the rest. -/
theorem nextPayload_some {data : String} (read : decoder.nextPayload = (some data, left)) :
    linePayloads decoder.buf = data :: linePayloads left.buf ∧
      Framing.unfinished newline decoder.buf = Framing.unfinished newline left.buf := by
  induction decoder using SseDecoder.nextPayload.induct with
  | case1 decoder incomplete =>
      rw [SseDecoder.nextPayload_none incomplete] at read
      cases read
  | case2 decoder line rest popped payload found =>
      rw [SseDecoder.nextPayload_data popped found] at read
      cases read
      refine ⟨?_, Framing.unfinished_of_pop popped⟩
      rw [linePayloads_of_pop popped, found]
      rfl
  | case3 decoder line rest popped skipped ih =>
      rw [SseDecoder.nextPayload_skip popped skipped] at read
      refine ⟨?_, (Framing.unfinished_of_pop popped).trans (ih read).2⟩
      rw [linePayloads_of_pop popped, skipped]
      exact (ih read).1

/-- The decoder without a payload keeps only the line that is not complete. -/
theorem nextPayload_end (read : decoder.nextPayload = (none, left)) :
    linePayloads decoder.buf = [] ∧ left.buf = Framing.unfinished newline decoder.buf := by
  induction decoder using SseDecoder.nextPayload.induct with
  | case1 decoder incomplete =>
      rw [SseDecoder.nextPayload_none incomplete] at read
      cases read
      refine ⟨?_, (Framing.unfinished_of_pop_none incomplete).symm⟩
      unfold linePayloads
      rw [Framing.records_of_pop_none incomplete]
      rfl
  | case2 decoder line rest popped payload found =>
      rw [SseDecoder.nextPayload_data popped found] at read
      cases read
  | case3 decoder line rest popped skipped ih =>
      rw [SseDecoder.nextPayload_skip popped skipped] at read
      refine ⟨?_, (ih read).2.trans (Framing.unfinished_of_pop popped).symm⟩
      rw [linePayloads_of_pop popped, skipped]
      exact (ih read).1

end Decoder

section Read
variable {Parser : Type} (streamParser : StreamParser Parser)

/-- The parser gets a list of payloads, unless reading ends before. -/
def Reading.takeAll (reading : Reading Parser) : List String → Reading Parser × Option StreamEnd
  | [] => (reading, none)
  | data :: rest =>
      match reading.take streamParser data with
      | (taken, some ended) => (taken, some ended)
      | (taken, none) => taken.takeAll rest

/-- What follows the payloads: the connection failed, or the reply is finished. -/
def conclude (failure : Option String) : Reading Parser × Option StreamEnd →
    Reading Parser × StreamEnd
  | (reading, some ended) => (reading, ended)
  | (reading, none) =>
      (reading, failure.elim (.finished (streamParser.finish reading.parser)) fun reason =>
        .failed (.reqwestError reason))

/-- The end of the body completes its last line, unless the connection failed. -/
def lastBytes (failure : Option String) : List UInt8 := failure.elim [newline] fun _ => []

theorem takeAll_append (reading : Reading Parser) (first second : List String) :
    reading.takeAll streamParser (first ++ second) =
      match reading.takeAll streamParser first with
      | (taken, some ended) => (taken, some ended)
      | (taken, none) => taken.takeAll streamParser second := by
  induction first generalizing reading with
  | nil => rfl
  | cons data rest ih =>
      rw [List.cons_append, Reading.takeAll, Reading.takeAll]
      split
      · rfl
      · exact ih _

/-- The parser gets exactly the payloads of the complete lines, and the line
that is not complete is kept. -/
theorem drain_eq (decoder : SseDecoder) (reading : Reading Parser) :
    (drain streamParser decoder reading).2 =
      reading.takeAll streamParser (linePayloads decoder.buf) ∧
      ((drain streamParser decoder reading).2.2 = none →
        (drain streamParser decoder reading).1.buf = Framing.unfinished newline decoder.buf) := by
  induction decoder, reading using drain.induct streamParser with
  | case1 decoder reading left next =>
      obtain ⟨payloads, kept⟩ := nextPayload_end next
      rw [drain_none next, payloads]
      exact ⟨rfl, fun _ => kept⟩
  | case2 decoder reading data left next taken ended ends =>
      rw [drain_ended next ends, (nextPayload_some next).1, Reading.takeAll, ends]
      exact ⟨rfl, nofun⟩
  | case3 decoder reading data left next taken goesOn ih =>
      obtain ⟨payloads, kept⟩ := nextPayload_some next
      rw [drain_goes_on next goesOn, payloads, Reading.takeAll, goesOn, kept]
      exact ih

/-- A part of the body that is drained is a part of the payloads. -/
theorem takeAll_drain {decoder left : SseDecoder} {reading taken : Reading Parser}
    {ended : Option StreamEnd}
    (drained : drain streamParser decoder reading = (left, taken, ended)) (later : List UInt8) :
    reading.takeAll streamParser (linePayloads (decoder.buf ++ later)) =
      match ended with
      | some ended => (taken, some ended)
      | none => taken.takeAll streamParser (linePayloads (left.buf ++ later)) := by
  obtain ⟨same, kept⟩ := drain_eq streamParser decoder reading
  rw [drained] at same kept
  rw [linePayloads_append, takeAll_append, ← same]
  cases ended with
  | some ended => rfl
  | none =>
      dsimp only
      rw [kept rfl]

/-- What is left of a drained buffer is the line that is not complete. -/
theorem drain_left {decoder left : SseDecoder} {reading taken : Reading Parser}
    (drained : drain streamParser decoder reading = (left, taken, none)) :
    left.buf = Framing.unfinished newline decoder.buf := by
  have kept := (drain_eq streamParser decoder reading).2
  rw [drained] at kept
  exact kept rfl

/-- What is read of a body depends on its bytes only. -/
theorem readStream_eq (failure : Option String) (chunks : List (List UInt8)) (decoder : SseDecoder)
    (reading : Reading Parser) (waiting : linePayloads decoder.buf = [])
    (short : ∀ line ∈ Framing.split newline (decoder.buf ++ chunks.flatten),
      line.length ≤ maxLineLen) :
    readStream streamParser failure decoder reading chunks =
      conclude streamParser failure (reading.takeAll streamParser
        (linePayloads (decoder.buf ++ (chunks.flatten ++ lastBytes failure)))) := by
  induction chunks generalizing decoder reading with
  | nil =>
      cases failure with
      | some reason =>
          show _ = conclude streamParser _
            (reading.takeAll streamParser (linePayloads (decoder.buf ++ [])))
          rw [List.append_nil, waiting]
          rfl
      | none =>
          show _ = conclude streamParser _
            (reading.takeAll streamParser (linePayloads (decoder.buf ++ [newline])))
          rw [readStream]
          rcases drained : drain streamParser (decoder.feed [newline]) reading with
            ⟨left, taken, ended⟩
          have payloads := takeAll_drain streamParser drained []
          rw [List.append_nil] at payloads
          rw [show decoder.buf ++ [newline] = (decoder.feed [newline]).buf from rfl, payloads]
          cases ended with
          | some ended => rfl
          | none =>
              have empty : left.buf = [] :=
                (drain_left streamParser drained).trans (Framing.unfinished_concat _ _)
              dsimp only
              rw [empty]
              rfl
  | cons bytes rest ih =>
      rw [readStream]
      rcases drained : drain streamParser (decoder.feed bytes) reading with ⟨left, taken, ended⟩
      have whole : decoder.buf ++ ((bytes :: rest).flatten ++ lastBytes failure) =
          (decoder.feed bytes).buf ++ (rest.flatten ++ lastBytes failure) := by
        rw [List.flatten_cons, List.append_assoc]
        exact (List.append_assoc _ _ _).symm
      rw [whole, takeAll_drain streamParser drained]
      cases ended with
      | some ended => rfl
      | none =>
          have kept := drain_left streamParser drained
          rw [List.flatten_cons, ← List.append_assoc] at short
          have fits : left.buf.length ≤ maxLineLen := by
            obtain ⟨line, member, longer⟩ :=
              Framing.unfinished_prefix newline (decoder.buf ++ bytes) rest.flatten
            rw [kept]
            exact longer.length_le.trans (short line member)
          dsimp only
          rw [if_neg (Nat.not_lt.mpr fits)]
          refine ih left taken ?_ ?_
          · rw [kept]
            exact linePayloads_unfinished _
          · intro line member
            rw [kept] at member
            refine short line ?_
            rw [Framing.split_append]
            exact List.mem_append_right _ member

/-- The reply that is read from payloads as if they were the whole body. -/
def parseStream (parser : Parser) (payloads : List String) : Except Error Choice :=
  (conclude streamParser none ((⟨parser, [], []⟩ : Reading Parser).takeAll streamParser
    payloads)).2.result

/-- The reply of a body is that of its payloads. -/
theorem readStream_result (parser : Parser) (chunks : List (List UInt8))
    (short : ∀ line ∈ Framing.split newline chunks.flatten, line.length ≤ maxLineLen) :
    (readStream streamParser none .new ⟨parser, [], []⟩ chunks).2.result =
      parseStream streamParser parser (linePayloads (chunks.flatten ++ [newline])) := by
  rw [readStream_eq streamParser none chunks .new ⟨parser, [], []⟩ rfl short]
  rfl

/-- The parser does not find a line too long. -/
theorem takeAll_ended (reading : Reading Parser) (payloads : List String) :
    (reading.takeAll streamParser payloads).2 ≠ some .lineTooLong := by
  induction payloads generalizing reading with
  | nil => nofun
  | cons data rest ih =>
      have once : (reading.take streamParser data).2 ≠ some .lineTooLong := by
        unfold Reading.take
        dsimp only
        split <;> nofun
      rw [Reading.takeAll]
      split
      · next took =>
        rw [took] at once
        exact once
      · exact ih _

/-- The payloads that the parser gets, what it sends and the reply do not depend on where the chunks
of a body end, and no line is found too long. -/
theorem readStream_chunks (failure : Option String) (parser : Parser) (chunks : List (List UInt8))
    (short : ∀ line ∈ Framing.split newline chunks.flatten, line.length ≤ maxLineLen) :
    readStream streamParser failure .new ⟨parser, [], []⟩ chunks =
        readStream streamParser failure .new ⟨parser, [], []⟩ [chunks.flatten] ∧
      (readStream streamParser failure .new ⟨parser, [], []⟩ chunks).2 ≠ .lineTooLong := by
  have single : [chunks.flatten].flatten = chunks.flatten := by rw [List.flatten_singleton]
  have pieces := readStream_eq streamParser failure chunks .new ⟨parser, [], []⟩ rfl short
  have whole := readStream_eq streamParser failure [chunks.flatten] .new ⟨parser, [], []⟩ rfl
    (by rw [single]; exact short)
  rw [single, ← pieces] at whole
  refine ⟨whole.symm, ?_⟩
  rw [pieces]
  rcases taken : Reading.takeAll streamParser _ _ with ⟨reading, ended⟩
  cases ended with
  | none =>
      cases failure with
      | none => nofun
      | some reason => nofun
  | some ended =>
      intro same
      have found := takeAll_ended streamParser ⟨parser, [], []⟩ (linePayloads (SseDecoder.new.buf ++
        (chunks.flatten ++ lastBytes failure)))
      rw [taken] at found
      exact found (congrArg some same)

end Read

/-- This parser keeps every payload and stops at "end"; only then the reply is complete. -/
def recorder : StreamParser (List String × Bool) where
  payload state data := ([], .ok (data == "end", state.1 ++ [data], data == "end"))
  finish state :=
    if state.2 then .ok ⟨.ofAssistant (",".intercalate state.1), none, none⟩
    else .error (.incompleteResponse (",".intercalate state.1))

/-- A character is torn, a chunk ends between the carriage return and the newline, one is empty, and
the last line has no newline. -/
def tornChunks : List (List UInt8) :=
  [[0x64, 0x61, 0x74, 0x61, 0x3A, 0x20, 0x61, 0xE6, 0x97], [0xA5, 0x0D], [],
    [0x0A, 0x64, 0x61, 0x74], [0x61, 0x3A, 0x65, 0x6E, 0x64]]

theorem readStream_sample :
    readStream recorder none .new ⟨([], false), [], []⟩ tornChunks =
        readStream recorder none .new ⟨([], false), [], []⟩ [tornChunks.flatten] ∧
      (readStream recorder none .new ⟨([], false), [], []⟩ tornChunks).2 ≠ .lineTooLong :=
  readStream_chunks recorder none ([], false) tornChunks (by decide)

end Openheim.Llm
