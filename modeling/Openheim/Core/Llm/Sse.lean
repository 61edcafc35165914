import Openheim.Core.Agent
import Openheim.Library.Framing
import Openheim.Library.Lines

/-
This file follows `src/core/llm/sse.rs`, which reads the `data:` payloads of a streamed reply.
-/

namespace Openheim.Llm

/-- A provider's interpretation of its own stream: one payload at a time, then the finished reply. A
payload may send pieces of the reply, and says whether the stream is over. -/
structure StreamParser (Parser : Type) where
  payload : Parser → String → List LlmChunk × Except Error (Bool × Parser)
  finish : Parser → Except Error Choice

/-- A piece of the reply is sent on unless it is empty. -/
def sentPiece (kind : String → LlmChunk) (text : Option String) : List LlmChunk :=
  text.elim [] fun text => if text.isEmpty then [] else [kind text]

/-- Longest line that is buffered, in bytes. -/
def maxLineLen : Nat := 1024 * 1024

def newline : UInt8 := 0x0A

/-- The rest of a text after a prefix. -/
def stripPrefix (start text : List Char) : Option (List Char) :=
  if start.isPrefixOf text then some (text.drop start.length) else none

/-- The payload of a line, which still has its newline. Blank lines, comments
and other fields have none. -/
def linePayload (lineBytes : List UInt8) : Option String :=
  let line := (Utf8.decodeLossy lineBytes).rdropWhile (· = '\r')
  if line.isEmpty ∨ line.head? = some ':' then none
  else
    ((stripPrefix "data: ".toList line).orElse fun _ => stripPrefix "data:".toList line).map
        fun data =>
      String.ofList (Lines.trim data)

/-- The bytes that arrived and were not read yet. -/
structure SseDecoder where
  buf : List UInt8
  deriving DecidableEq, Repr

namespace SseDecoder

def new : SseDecoder := ⟨[]⟩

def feed (decoder : SseDecoder) (bytes : List UInt8) : SseDecoder := ⟨decoder.buf ++ bytes⟩

/-- Complete lines are popped up to the first one with a payload. -/
def nextPayload (decoder : SseDecoder) : Option String × SseDecoder :=
  match _popped : Framing.pop newline decoder.buf with
  | none => (none, decoder)
  | some (line, rest) =>
      match linePayload (line ++ [newline]) with
      | some data => (some data, ⟨rest⟩)
      | none => nextPayload ⟨rest⟩
  termination_by decoder.buf.length
  decreasing_by exact Framing.pop_length _popped

section Next
variable {decoder : SseDecoder} {line rest : List UInt8} {data : String}

/-- Without a whole line there is no payload yet. -/
theorem nextPayload_none (incomplete : Framing.pop newline decoder.buf = none) :
    decoder.nextPayload = (none, decoder) := by
  rw [nextPayload]
  split
  · rfl
  · next found => cases incomplete.symm.trans found

/-- A line with data is the next payload. -/
theorem nextPayload_data (popped : Framing.pop newline decoder.buf = some (line, rest))
    (payload : linePayload (line ++ [newline]) = some data) :
    decoder.nextPayload = (some data, ⟨rest⟩) := by
  rw [nextPayload]
  split
  · next found => cases popped.symm.trans found
  · next found =>
    cases popped.symm.trans found
    rw [payload]

/-- A line without data is skipped. -/
theorem nextPayload_skip (popped : Framing.pop newline decoder.buf = some (line, rest))
    (skipped : linePayload (line ++ [newline]) = none) :
    decoder.nextPayload = (⟨rest⟩ : SseDecoder).nextPayload := by
  rw [nextPayload]
  split
  · next found => cases popped.symm.trans found
  · next found =>
    cases popped.symm.trans found
    rw [skipped]

/-- A payload takes at least one byte from the buffer. -/
theorem nextPayload_length {left : SseDecoder} (read : decoder.nextPayload = (some data, left)) :
    left.buf.length < decoder.buf.length := by
  induction decoder using SseDecoder.nextPayload.induct with
  | case1 decoder incomplete =>
      rw [nextPayload_none incomplete] at read
      cases read
  | case2 decoder line rest popped payload found =>
      rw [nextPayload_data popped found] at read
      cases read
      exact Framing.pop_length popped
  | case3 decoder line rest popped skipped ih =>
      rw [nextPayload_skip popped skipped] at read
      exact (ih read).trans (Framing.pop_length popped)

end Next

end SseDecoder

/-- How the reading of a stream ends. -/
inductive StreamEnd where
  | finished (result : Except Error Choice)
  | failed (error : Error)
  | lineTooLong

/-- What `read_stream` returns. -/
def StreamEnd.result : StreamEnd → Except Error Choice
  | .finished result => result
  | .failed error => .error error
  | .lineTooLong =>
      .error (.parseError ("stream line longer than " ++ toString maxLineLen ++ " bytes"))

/-- The parser of `read_stream`, with the payloads passed to it and the
pieces that it sent so far. -/
structure Reading (Parser : Type) where
  parser : Parser
  payloads : List String
  sent : List LlmChunk

section Read
variable {Parser : Type} (streamParser : StreamParser Parser)

/-- The parser gets one payload. Reading ends when it fails or says that the stream is over. -/
def Reading.take (reading : Reading Parser) (data : String) : Reading Parser × Option StreamEnd :=
  let (sent, answer) := streamParser.payload reading.parser data
  let taken := { reading with payloads := reading.payloads ++ [data], sent := reading.sent ++ sent }
  match answer with
  | .error error => (taken, some (.failed error))
  | .ok (true, parser) => ({ taken with parser }, some (.finished (streamParser.finish parser)))
  | .ok (false, parser) => ({ taken with parser }, none)

/-- Every payload that is complete goes to the parser, unless reading ends before. -/
def drain (decoder : SseDecoder) (reading : Reading Parser) :
    SseDecoder × Reading Parser × Option StreamEnd :=
  match _next : decoder.nextPayload with
  | (none, left) => (left, reading, none)
  | (some data, left) =>
      match reading.take streamParser data with
      | (taken, some ended) => (left, taken, some ended)
      | (taken, none) => drain left taken
  termination_by decoder.buf.length
  decreasing_by exact SseDecoder.nextPayload_length _next

section Drain
variable {streamParser} {decoder left : SseDecoder} {reading taken : Reading Parser} {data : String}

/-- Draining ends when no payload is left. -/
theorem drain_none (next : decoder.nextPayload = (none, left)) :
    drain streamParser decoder reading = (left, reading, none) := by
  rw [drain]
  split
  · next found =>
    cases next.symm.trans found
    rfl
  · next found => cases next.symm.trans found

/-- Draining ends when a payload ends the stream. -/
theorem drain_ended {ended : StreamEnd} (next : decoder.nextPayload = (some data, left))
    (ends : reading.take streamParser data = (taken, some ended)) :
    drain streamParser decoder reading = (left, taken, some ended) := by
  rw [drain]
  split
  · next found => cases next.symm.trans found
  · next found =>
    cases next.symm.trans found
    rw [ends]

/-- Draining goes on behind a payload. -/
theorem drain_goes_on (next : decoder.nextPayload = (some data, left))
    (goesOn : reading.take streamParser data = (taken, none)) :
    drain streamParser decoder reading = drain streamParser left taken := by
  rw [drain]
  split
  · next found => cases next.symm.trans found
  · next found =>
    cases next.symm.trans found
    rw [goesOn]

end Drain

/-- The chunks of a body are read one by one. A body ends with a last newline, or with the reason
why the connection failed. -/
def readStream (failure : Option String) (decoder : SseDecoder) (reading : Reading Parser) :
    List (List UInt8) → Reading Parser × StreamEnd
  | bytes :: chunks =>
      match drain streamParser (decoder.feed bytes) reading with
      | (_, reading, some ended) => (reading, ended)
      | (decoder, reading, none) =>
          if maxLineLen < decoder.buf.length then (reading, .lineTooLong)
          else readStream failure decoder reading chunks
  | [] =>
      match failure with
      | some reason => (reading, .failed (.reqwestError reason))
      | none =>
          match drain streamParser (decoder.feed [newline]) reading with
          | (_, reading, some ended) => (reading, ended)
          | (decoder, reading, none) =>
              if maxLineLen < decoder.buf.length then (reading, .lineTooLong)
              else (reading, .finished (streamParser.finish reading.parser))

end Read

end Openheim.Llm
