import Mathlib.Data.List.Induction
import Openheim.Memory.History

/-
This file shows what a load returns after an append was cut off and later appends followed it.
-/

namespace Openheim.Memory

/-- These are the facts the log relies on when the JSON library writes one message. -/
structure SerdeJson.WritesLine (serde : SerdeJson) (message : Message) : Prop where
  object : ∃ body, serde.toText message = '{' :: (body ++ ['}'])
  oneLine : '\n' ∉ serde.toText message
  roundTrip : serde.fromText (serde.toText message) = some message
  noPrefix : ∀ torn, torn <+: serde.toText message → torn ≠ serde.toText message →
    serde.fromText torn = none

/-- The JSON library reads exactly one value, so a torn object that runs
into the next one is malformed. -/
def SerdeJson.RejectsJoined (serde : SerdeJson) (message next : Message) : Prop :=
  ∀ torn, torn <+: serde.toText message → torn ≠ [] →
    serde.fromText (torn ++ serde.toText next) = none

/-- A call that writes to the log of one conversation. -/
inductive HistoryCall where
  | append (now : Instant) (message : Message)
  | save (now : Instant) (conv : Conversation)
  deriving DecidableEq, Repr

def HistoryCall.isSave : HistoryCall → Bool
  | .append _ _ => false
  | .save _ _ => true

/-- The messages that a call hands to the JSON library. -/
def HistoryCall.messages : HistoryCall → List Message
  | .append _ message => [message]
  | .save _ conv => conv.messages

def runCall (serde : SerdeJson) (files : ConversationFiles) :
    HistoryCall → Except Error ConversationFiles
  | .append now message => .ok (appendMessage serde now files message)
  | .save now conv => saveConversation serde now files conv

/-- The calls run in order, and each must succeed. -/
def runCalls (serde : SerdeJson) (files : ConversationFiles) (calls : List HistoryCall) :
    Except Error ConversationFiles := calls.foldlM (runCall serde) files

/-- The messages a conversation holds after one more successful call. -/
def logAfter (messages : List Message) : HistoryCall → List Message
  | .append _ message => messages ++ [message]
  | .save _ conv => conv.messages

/-- The messages a conversation holds after successful calls. -/
def loggedMessages (calls : List HistoryCall) : List Message := calls.foldl logAfter []

/-- Later appends that all succeed. -/
def appendAll (serde : SerdeJson) (files : ConversationFiles) (later : List (Instant × Message)) :
    ConversationFiles :=
  later.foldl (fun files call => appendMessage serde call.1 files call.2) files

/-- The text of a log that holds whole lines only. -/
def logText (serde : SerdeJson) (messages : List Message) : List Char :=
  messages.flatMap (logLine serde)

@[simp] theorem logText_nil (serde : SerdeJson) : logText serde [] = [] := rfl

@[simp] theorem logText_append (serde : SerdeJson) (first second : List Message) :
    logText serde (first ++ second) = logText serde first ++ logText serde second :=
  List.flatMap_append

@[simp] theorem logText_cons (serde : SerdeJson) (message : Message) (messages : List Message) :
    logText serde (message :: messages) = serde.toText message ++ '\n' ::
      logText serde messages := by
  simp [logText, logLine]

theorem SerdeJson.WritesLine.nonempty {serde : SerdeJson} {message : Message}
    (written : serde.WritesLine message) :
    serde.toText message ≠ [] := by
  obtain ⟨body, shape⟩ := written.object
  simp [shape]

/-- A line that starts with the first character of a message is not blank. -/
theorem SerdeJson.WritesLine.notBlank {serde : SerdeJson} {message : Message}
    (written : serde.WritesLine message) {torn : List Char} (part : torn <+: serde.toText message)
    (begun : torn ≠ []) (rest : List Char) : Lines.isBlank (torn ++ rest) = false := by
  obtain ⟨body, shape⟩ := written.object
  cases torn with
  | nil => exact absurd rfl begun
  | cons char torn =>
      rw [shape, List.cons_prefix_cons] at part
      rw [List.cons_append, part.1]
      exact Lines.isBlank_cons (by decide)

/-- A line that is written ends in no carriage return. -/
theorem SerdeJson.WritesLine.getLast {serde : SerdeJson} {message : Message}
    (written : serde.WritesLine message)
    (before : List Char) : (before ++ serde.toText message).getLast? ≠ some '\r' := by
  obtain ⟨body, shape⟩ := written.object
  rw [shape, ← List.cons_append, ← List.append_assoc, List.getLast?_concat]
  decide

/-- The lines of whole messages are their texts, and the rest of the log follows. -/
theorem lines_logText {serde : SerdeJson} {messages : List Message}
    (written : ∀ message ∈ messages, serde.WritesLine message) (rest : List Char) :
    (Lines.lines (logText serde messages ++ rest)).filter (fun line => !Lines.isBlank line) =
      messages.map serde.toText ++ (Lines.lines rest).filter fun line => !Lines.isBlank line := by
  induction messages with
  | nil => rfl
  | cons message messages ih =>
      have here := written message (by simp)
      have visible := here.notBlank List.prefix_rfl here.nonempty []
      rw [List.append_nil] at visible
      rw [logText_cons, List.append_assoc, List.cons_append,
        Lines.lines_terminated here.oneLine (by simpa using here.getLast []),
        List.filter_cons_of_pos (by simp [visible]), ih fun message member =>
          written message (by simp [member])]
      rfl

/-- Whole messages parse, and the remaining lines decide the result. -/
theorem parseLines_append {serde : SerdeJson} {messages : List Message}
    (written : ∀ message ∈ messages, serde.WritesLine message) (rest : List (List Char)) :
    parseLines serde (messages.map serde.toText ++ rest) =
      (parseLines serde rest).map (messages ++ ·) := by
  induction messages with
  | nil =>
      rw [List.map_nil, List.nil_append]
      cases parseLines serde rest <;> rfl
  | cons message messages ih =>
      have here := (written message (by simp)).roundTrip
      rw [List.map_cons, List.cons_append, parseLines, here,
        ih fun message member => written message (by simp [member])]
      cases parseLines serde rest <;> rfl

/-- Whole lines at the front of the log leave the rest of it to decide the result. -/
theorem readMessageLog_front {serde : SerdeJson} {files : ConversationFiles}
    {messages : List Message}
    {rest : List Char} (written : ∀ message ∈ messages, serde.WritesLine message)
    (stored : files.log = some (Utf8.encode (logText serde messages ++ rest))) :
    readMessageLog serde files =
      (parseLines serde ((Lines.lines rest).filter fun line => !Lines.isBlank line)).map
        (messages ++ ·) := by
  rw [readMessageLog, stored]
  simp only [Utf8.decode_encode]
  rw [lines_logText written, parseLines_append written]

/-- A log of whole lines reads back as its messages. -/
theorem readMessageLog_whole {serde : SerdeJson} {files : ConversationFiles}
    {messages : List Message} (written : ∀ message ∈ messages, serde.WritesLine message)
    (stored : files.log.getD [] = Utf8.encode (logText serde messages)) :
    readMessageLog serde files = .ok messages := by
  cases present : files.log with
  | none =>
      have empty : messages = [] := by
        cases messages with
        | nil => rfl
        | cons message messages =>
            obtain ⟨body, shape⟩ := (written message (by simp)).object
            rw [present, logText_cons, shape] at stored
            have lengths := congrArg List.length stored
            have positive := Char.utf8Size_pos '{'
            simp at lengths
            omega
      simp [readMessageLog, present, empty]
  | some data =>
      rw [present, Option.getD_some] at stored
      rw [← List.append_nil (logText serde messages)] at stored
      rw [readMessageLog_front written (present.trans (congrArg some stored))]
      simp [parseLines, Except.map]

/-- A torn last line is dropped unless its whole text arrived. -/
theorem readMessageLog_tornLast {serde : SerdeJson} {files : ConversationFiles}
    {messages : List Message}
    {message : Message} {torn : List Char}
    (written : ∀ message ∈ messages, serde.WritesLine message)
    (last : serde.WritesLine message) (part : torn <+: serde.toText message) (begun : torn ≠ [])
    (stored : files.log = some (Utf8.encode (logText serde messages ++ torn))) :
    readMessageLog serde files =
      .ok (messages ++ if torn = serde.toText message then [message] else []) := by
  have single : '\n' ∉ torn := fun member => last.oneLine (part.subset member)
  have visible := last.notBlank part begun []
  rw [List.append_nil] at visible
  rw [readMessageLog_front written stored, Lines.lines_unterminated single begun,
    List.filter_cons_of_pos (by simp [visible]), List.filter_nil, parseLines]
  by_cases whole : torn = serde.toText message
  · rw [whole, last.roundTrip]
    simp [parseLines, Except.map]
  · rw [last.noPrefix torn part whole]
    simp [whole, Except.map]

/-- A torn line runs into the next message, which is lost with it; a further
message makes the log unreadable. -/
theorem readMessageLog_joined {serde : SerdeJson} {files : ConversationFiles}
    {messages later : List Message}
    {message next : Message} {torn : List Char}
    (written : ∀ message ∈ messages, serde.WritesLine message)
    (cut : serde.WritesLine message) (follows : serde.WritesLine next)
    (others : ∀ message ∈ later, serde.WritesLine message)
    (rejected : serde.RejectsJoined message next)
    (part : torn <+: serde.toText message) (begun : torn ≠ [])
    (stored : files.log =
      some (Utf8.encode (logText serde messages ++ (torn ++ logText serde (next :: later))))) :
    readMessageLog serde files = if later.isEmpty then .ok messages else .error .jsonError := by
  have single : '\n' ∉ torn ++ serde.toText next := by
    intro member
    rcases List.mem_append.mp member with inside | inside
    · exact cut.oneLine (part.subset inside)
    · exact follows.oneLine inside
  have visible := cut.notBlank part begun (serde.toText next)
  have whole := lines_logText others []
  rw [List.append_nil, Lines.lines_nil, List.filter_nil, List.append_nil] at whole
  rw [readMessageLog_front written stored, logText_cons, ← List.append_assoc,
    Lines.lines_terminated single (follows.getLast torn),
    List.filter_cons_of_pos (by simp [visible]), parseLines,
    rejected torn part begun, whole]
  cases later <;> simp [Except.map]

/-- A log that is torn inside a character cannot be read at all. -/
theorem readMessageLog_tornChar {serde : SerdeJson} {files : ConversationFiles}
    {messages later : List Message}
    {message : Message} {bytes : Nat}
    (inside : bytes ≤ (Utf8.encode (logLine serde message)).length)
    (torn : Utf8.isCharBoundary (logLine serde message) bytes = false)
    (stored : files.log = some (Utf8.encode (logText serde messages) ++
      ((Utf8.encode (logLine serde message)).take bytes ++ Utf8.encode (logText serde later)))) :
    readMessageLog serde files = .error .ioError := by
  rw [readMessageLog, stored]
  simp only [Utf8.decode_encode_append, Utf8.decode_torn inside torn, Option.map_none]

/-- Successful appends add whole lines. -/
theorem appendAll_log (serde : SerdeJson) (files : ConversationFiles)
    (later : List (Instant × Message)) :
    (appendAll serde files later).log.getD [] =
      files.log.getD [] ++ Utf8.encode (logText serde (later.map Prod.snd)) := by
  induction later generalizing files with
  | nil => simp [appendAll, logText]
  | cons call later ih =>
      have rest := ih (appendMessage serde call.1 files call.2)
      rw [appendAll, List.foldl_cons, ← appendAll, rest, appendMessage_log, Option.getD_some,
        List.map_cons, List.append_assoc, ← Utf8.encode_append]
      rfl

/-- Appending leaves the files in place. -/
theorem appendAll_isSome (serde : SerdeJson) (files : ConversationFiles)
    (later : List (Instant × Message)) :
    (appendAll serde files later).metaFile.isSome = files.metaFile.isSome ∧
      (files.log.isSome → (appendAll serde files later).log.isSome) := by
  induction later generalizing files with
  | nil => exact ⟨rfl, id⟩
  | cons call later ih =>
      have rest := ih (appendMessage serde call.1 files call.2)
      rw [appendMessage_isSome] at rest
      exact ⟨rest.1, fun _ => rest.2 (by simp)⟩

/-- Successful calls leave exactly the logged messages, and a save leaves the meta file. -/
theorem runCalls_log {serde : SerdeJson} {calls : List HistoryCall} {files : ConversationFiles}
    (written : ∀ message ∈ calls.flatMap HistoryCall.messages, serde.WritesLine message)
    (built : runCalls serde .absent calls = .ok files) :
    files.log.getD [] = Utf8.encode (logText serde (loggedMessages calls)) ∧
      files.metaFile.isSome = calls.any HistoryCall.isSave ∧
      ∀ message ∈ loggedMessages calls, message ∈ calls.flatMap HistoryCall.messages := by
  induction calls using List.reverseRecOn generalizing files with
  | nil =>
      cases built
      exact ⟨rfl, rfl, by simp [loggedMessages]⟩
  | append_singleton calls call ih =>
      rw [runCalls, List.foldlM_append] at built
      cases before : List.foldlM (runCall serde) .absent calls with
      | error reason => simp [before, bind, Except.bind] at built
      | ok middle =>
          have earlier : ∀ message ∈ calls.flatMap HistoryCall.messages,
              serde.WritesLine message := by
            intro message member
            exact written message (by simp [member])
          obtain ⟨log, saved, kept⟩ := ih earlier before
          simp only [before, bind, Except.bind, List.foldlM_cons, List.foldlM_nil] at built
          rw [loggedMessages, List.foldl_append, List.foldl_cons, List.foldl_nil, ← loggedMessages]
          cases call with
          | append now message =>
              simp only [runCall, pure, Except.pure, Except.ok.injEq] at built
              subst built
              refine ⟨?_, ?_, ?_⟩
              · rw [appendMessage_log, Option.getD_some, log, logAfter, logText_append,
                  Utf8.encode_append]
                simp [logText]
              · simp [saved, HistoryCall.isSave]
              · intro found member
                rcases List.mem_append.mp member with inside | inside
                · simp [kept found inside]
                · simp [HistoryCall.messages, List.mem_singleton.mp inside]
          | save now conv =>
              have read :=
                readMessageLog_whole (fun message member =>
                    earlier message (kept message member)) log
              simp only [runCall, saveConversation, read, bind, Except.bind] at built
              by_cases different : diverged (loggedMessages calls) conv.messages
              · simp [different, throw, throwThe, MonadExceptOf.throw] at built
              · simp only [different, Bool.false_eq_true, ↓reduceIte, pure, Except.pure,
                  Except.ok.injEq] at built
                subst built
                refine ⟨?_, ?_, ?_⟩
                · simp [saveMeta, writeMessageLog, logAfter, logText]
                · simp [saveMeta, HistoryCall.isSave]
                · intro found member
                  simp only [logAfter] at member
                  simp [HistoryCall.messages, member]

/-- A cut inside the line leaves part of the JSON text on disk. -/
theorem prefix_of_cut {serde : SerdeJson} {message : Message} {kept lost : List Char}
    (split : logLine serde message = kept ++ lost) (missing : lost ≠ []) :
    kept <+: serde.toText message := by
  have part : kept <+: serde.toText message ++ ['\n'] := ⟨lost, split.symm⟩
  rcases List.prefix_concat_iff.mp part with whole | part
  · rw [whole, logLine] at split
    exact absurd (List.self_eq_append_right.mp split) missing
  · exact part

/-- A log with the start of a line reads back in full exactly when nothing was appended after it. -/
theorem readMessageLog_part {serde : SerdeJson} {files : ConversationFiles}
    {messages later : List Message}
    {message : Message} {kept : List Char}
    (written : ∀ message ∈ messages, serde.WritesLine message)
    (cut : serde.WritesLine message) (others : ∀ message ∈ later, serde.WritesLine message)
    (rejected : ∀ next ∈ later.head?, serde.RejectsJoined message next)
    (part : kept <+: serde.toText message) (unstarted : kept ≠ [])
    (stored : files.log =
      some (Utf8.encode (logText serde messages ++ (kept ++ logText serde later)))) :
    readMessageLog serde files = .ok (messages ++
        (if (Utf8.encode (serde.toText message)).length ≤ (Utf8.encode kept).length then [message]
            else []) ++ later) ↔
      later = [] := by
  cases later with
  | nil =>
      rw [logText_nil, List.append_nil] at stored
      rw [readMessageLog_tornLast written cut part unstarted stored]
      simp [← Utf8.eq_iff_length_le part]
  | cons next later =>
      -- The torn text and the next message share one line.
      have joined := readMessageLog_joined written cut (others next (by simp))
        (fun message member => others message (by simp [member])) (rejected next (by simp)) part
          unstarted stored
      simp only [joined, reduceCtorEq, iff_false]
      intro same
      cases later with
      | nil =>
          have lengths := congrArg (fun result => result.toOption.map List.length) same
          simp [Except.toOption] at lengths
      | cons second later => simp at same

/-- The log after a cut and later appends reads back in full exactly when no
torn text meets a later line. -/
theorem readMessageLog_cut {serde : SerdeJson} {files : ConversationFiles}
    {messages later : List Message}
    {message : Message} {bytes : Nat} (written : ∀ message ∈ messages, serde.WritesLine message)
    (cut : serde.WritesLine message) (others : ∀ message ∈ later, serde.WritesLine message)
    (rejected : ∀ next ∈ later.head?, serde.RejectsJoined message next)
    (inside : bytes ≤ (Utf8.encode (logLine serde message)).length)
    (stored : files.log = some (Utf8.encode (logText serde messages) ++
      ((Utf8.encode (logLine serde message)).take bytes ++ Utf8.encode (logText serde later)))) :
    readMessageLog serde files = .ok (messages ++
        (if (Utf8.encode (serde.toText message)).length ≤ bytes then [message] else []) ++ later) ↔
      bytes = 0 ∨ bytes = (Utf8.encode (logLine serde message)).length ∨
        (later = [] ∧ Utf8.isCharBoundary (logLine serde message) bytes) := by
  have textPositive := Utf8.encode_length_pos cut.nonempty
  have lineLength : (Utf8.encode (logLine serde message)).length =
      (Utf8.encode (serde.toText message)).length + 1 := by simp [logLine, String.utf8EncodeChar]
  cases boundary : Utf8.isCharBoundary (logLine serde message) bytes with
  | false =>
      -- The torn character makes the whole file invalid UTF-8.
      have started : bytes ≠ 0 := by
        rintro rfl
        simp [Utf8.isCharBoundary] at boundary
      have unfinished : bytes ≠ (Utf8.encode (logLine serde message)).length := by
        rintro rfl
        simp [Utf8.isCharBoundary_length] at boundary
      simp [readMessageLog_tornChar inside boundary stored, started, unfinished]
  | true =>
      obtain ⟨kept, lost, split, taken, length⟩ := Utf8.take_encode_of_boundary boundary
      rw [taken, ← Utf8.encode_append, ← Utf8.encode_append] at stored
      by_cases unstarted : kept = []
      · subst unstarted
        have zero : bytes = 0 := length.symm
        rw [List.nil_append, ← logText_append] at stored
        rw [readMessageLog_whole (fun message member => (List.mem_append.mp member).elim
          (written message) (others message)) (by rw [stored, Option.getD_some]), if_neg (by omega)]
        simp [zero]
      · by_cases complete : lost = []
        · rw [complete, List.append_nil] at split
          have whole : bytes = (Utf8.encode (logLine serde message)).length := by
            rw [← length, split]
          have same : logText serde messages ++ (kept ++ logText serde later) =
              logText serde (messages ++ [message] ++ later) := by
            simp [← split, logLine]
          have lines : ∀ found ∈ messages ++ [message] ++ later, serde.WritesLine found := by
            intro found member
            simp only [List.mem_append, List.mem_singleton] at member
            rcases member with (before | here) | after
            · exact written found before
            · exact here ▸ cut
            · exact others found after
          rw [readMessageLog_whole lines (by rw [stored, Option.getD_some, same]),
            if_pos (by omega)]
          simp [whole]
        · have part := prefix_of_cut split complete
          have started : bytes ≠ 0 := by
            have positive := Utf8.encode_length_pos unstarted
            omega
          have unfinished : bytes ≠ (Utf8.encode (logLine serde message)).length := by
            have positive := Utf8.encode_length_pos complete
            rw [split, Utf8.encode_append, List.length_append]
            omega
          have read := readMessageLog_part written cut others rejected part unstarted stored
          rw [length] at read
          rw [read]
          simp [started, unfinished]

/-- A load after a cut append and later appends returns every message that reached the disk
exactly when the conversation was saved once, and the cut left nothing, the whole line, or a
last line of whole characters. -/
theorem loadConversation_cut {serde : SerdeJson} {calls : List HistoryCall}
    {files : ConversationFiles}
    {message : Message} {bytes : Nat} {later : List (Instant × Message)} (id : Uuid)
    (written : ∀ message ∈ calls.flatMap HistoryCall.messages, serde.WritesLine message)
    (cut : serde.WritesLine message) (others : ∀ call ∈ later, serde.WritesLine call.2)
    (rejected : ∀ next ∈ later.head?, serde.RejectsJoined message next.2)
    (built : runCalls serde .absent calls = .ok files)
    (inside : bytes ≤ (Utf8.encode (logLine serde message)).length) :
    (loadConversation serde (appendAll serde (appendMessageCut serde files message bytes) later)
          id).map
        Conversation.messages =
      .ok (loggedMessages calls ++
        (if (Utf8.encode (serde.toText message)).length ≤ bytes then [message]
            else []) ++ later.map Prod.snd) ↔
    calls.any HistoryCall.isSave ∧
      (bytes = 0 ∨ bytes = (Utf8.encode (logLine serde message)).length ∨
      (later = [] ∧ Utf8.isCharBoundary (logLine serde message) bytes)) := by
  obtain ⟨log, saved, kept⟩ := runCalls_log written built
  have appended := appendAll_log serde (appendMessageCut serde files message bytes) later
  obtain ⟨metaKept, logKept⟩ :=
    appendAll_isSome serde (appendMessageCut serde files message bytes) later
  obtain ⟨data, present⟩ := Option.isSome_iff_exists.mp (logKept rfl)
  rw [present, Option.getD_some, appendMessageCut, appendBytes_log, Option.getD_some, log,
    List.append_assoc] at appended
  have read :=
    @readMessageLog_cut serde (appendAll serde (appendMessageCut serde files message bytes) later)
    (loggedMessages calls) (later.map Prod.snd) message bytes
    (fun message member => written message (kept message member)) cut
    (by
      intro next member
      obtain ⟨call, inside, rfl⟩ := List.mem_map.mp member
      exact others call inside)
    (by
      intro next member
      cases later with
      | nil => simp at member
      | cons call later =>
          cases member
          exact rejected call rfl) inside (by rw [present, appended])
  rw [appendMessageCut, appendBytes_metaFile, saved] at metaKept
  rw [List.map_eq_nil_iff] at read
  rw [loadConversation]
  cases meta_ : (appendAll serde (appendMessageCut serde files message bytes) later).metaFile with
  | none =>
      rw [appendMessageCut] at meta_
      rw [meta_] at metaKept
      simp [← metaKept, Except.map]
  | some found =>
      rw [appendMessageCut] at meta_
      rw [meta_, Option.isSome_some] at metaKept
      rw [← read, ← metaKept]
      cases readMessageLog serde
        (appendAll serde (appendMessageCut serde files message bytes) later) <;>
        simp [Except.map, bind, Except.bind, pure, Except.pure]

/-- This is the message of the sample runs. -/
def greeting : Message := .ofUser "hi"

/-- The JSON library writes the greeting so. -/
def greetingText : List Char :=
  "\x7b\"role\":\"user\",\"content\":[\x7b\"type\":\"text\",\"text\":\"hi\"\x7d]\x7d".toList

/-- The JSON library as far as the sample runs use it: they write and
read nothing but the greeting. -/
def greetingJson : SerdeJson where
  toText _ := greetingText
  fromText text := if text = greetingText then some greeting else none

theorem greetingJson_writesLine : greetingJson.WritesLine greeting where
  object := ⟨(greetingText.drop 1).dropLast, by decide⟩
  oneLine := by decide
  roundTrip := rfl
  noPrefix torn _ different := if_neg different

theorem greetingJson_rejectsJoined : greetingJson.RejectsJoined greeting greeting := by
  intro torn _ begun
  exact if_neg fun same => begun (List.append_left_eq_self.mp same)

/-- The conversation of the sample runs as its creation saves it. -/
def freshConversation : Conversation := ⟨.new 0 0 none none [], []⟩

/-- The files of the conversation after its creation. -/
def freshFiles : ConversationFiles := ⟨some freshConversation.meta_, some []⟩

theorem runCalls_fresh :
    runCalls greetingJson .absent [.save 0 freshConversation] = .ok freshFiles := rfl

/-- The files after one byte of a failed append and a whole later append. -/
def swallowedFiles : ConversationFiles :=
  appendAll greetingJson (appendMessageCut greetingJson freshFiles greeting 1) [(1, greeting)]

/-- One byte of a failed append swallows the next message, which was appended with success. -/
theorem loadConversation_swallows_next :
    greetingJson.WritesLine greeting ∧ greetingJson.RejectsJoined greeting greeting ∧
      runCalls greetingJson .absent [.save 0 freshConversation] = .ok freshFiles ∧
      1 ≤ (Utf8.encode (logLine greetingJson greeting)).length ∧
      (loadConversation greetingJson swallowedFiles 0).map Conversation.messages = .ok [] ∧
      (loadConversation greetingJson swallowedFiles 0).map Conversation.messages ≠
        .ok (loggedMessages [.save 0 freshConversation] ++
          (if (Utf8.encode (greetingJson.toText greeting)).length ≤ 1 then [greeting] else []) ++
            [greeting]) := by
  have read : readMessageLog greetingJson swallowedFiles = .ok [] :=
    @readMessageLog_joined greetingJson swallowedFiles [] [] greeting greeting ['\x7b'] (by simp)
      greetingJson_writesLine greetingJson_writesLine (by simp) greetingJson_rejectsJoined
      ⟨greetingText.drop 1, by decide⟩ (by simp) (by decide)
  have loaded : (loadConversation greetingJson swallowedFiles 0).map Conversation.messages =
      .ok [] := by
    rw [loadConversation, show swallowedFiles.metaFile = some
      { freshConversation.meta_ with updatedAt := 1, title := some "hi" } by decide, read]
    rfl
  refine ⟨greetingJson_writesLine, greetingJson_rejectsJoined, runCalls_fresh, by decide,
    loaded, ?_⟩
  rw [loaded]
  simp

/-- The conversation was created and got two greetings. -/
def greetedCalls : List HistoryCall :=
  [.save 0 freshConversation, .append 1 greeting, .append 2 greeting]

theorem greetedCalls_written : ∀ message ∈ greetedCalls.flatMap HistoryCall.messages,
    greetingJson.WritesLine message := by
  intro message member
  have only : message = greeting := by
    simpa [greetedCalls, HistoryCall.messages, freshConversation] using member
  exact only ▸ greetingJson_writesLine

/-- A third greeting that was cut after its newline, or before its first byte, leaves the later ones
readable. Its whole text without the newline is enough when nothing follows it. -/
theorem loadConversation_cut_greeting :
    ∃ files, runCalls greetingJson .absent greetedCalls = .ok files ∧
    (loadConversation greetingJson
          (appendAll greetingJson (appendMessageCut greetingJson files greeting 56)
        [(3, greeting), (4, greeting)]) 0).map Conversation.messages = .ok
        (List.replicate 5 greeting) ∧
    (loadConversation greetingJson
          (appendAll greetingJson (appendMessageCut greetingJson files greeting 0)
        [(3, greeting), (4, greeting)]) 0).map Conversation.messages = .ok
        (List.replicate 4 greeting) ∧
    (loadConversation greetingJson
        (appendAll greetingJson (appendMessageCut greetingJson files greeting 55) []) 0).map
      Conversation.messages = .ok (List.replicate 3 greeting) := by
  obtain ⟨files, built⟩ : ∃ files, runCalls greetingJson .absent greetedCalls =
    .ok files := ⟨_, rfl⟩
  have others : ∀ call ∈ [(3, greeting), (4, greeting)],
      greetingJson.WritesLine (Prod.snd call) := by
    simp [greetingJson_writesLine]
  have rejected : ∀ next ∈ [((3 : Instant), greeting), (4, greeting)].head?,
      greetingJson.RejectsJoined greeting next.2 := by
    simp [greetingJson_rejectsJoined]
  exact ⟨files, built,
    (loadConversation_cut 0 greetedCalls_written greetingJson_writesLine others rejected built
      (by decide)).mpr (by decide),
    (loadConversation_cut 0 greetedCalls_written greetingJson_writesLine others rejected built
      (by decide)).mpr (by decide),
    (loadConversation_cut 0 greetedCalls_written greetingJson_writesLine (by simp) (by simp) built
      (by decide)).mpr
      (by decide)⟩

end Openheim.Memory
