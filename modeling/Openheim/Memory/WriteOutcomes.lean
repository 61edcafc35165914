import Openheim.Memory.HistoryDurability

/-
This file follows the writes of `src/memory/history.rs` when each of them may fail, and what is read
back then.
-/

namespace Openheim.Memory

/-- What becomes of the line of an append: the log cannot be opened, the write stops after some
bytes, or it is complete. -/
inductive LineWrite where
  | unopened
  | torn (bytes : Nat)
  | whole
  deriving DecidableEq, Repr

/-- A write that is cut stops between two characters. -/
def LineWrite.AtBoundary (serde : SerdeJson) (message : Message) : LineWrite → Prop
  | .torn bytes => Utf8.isCharBoundary (logLine serde message) bytes
  | _ => True

/-- Whether the log can be read, and which of its files a save can write. -/
structure SaveOutcome where
  logRead : Bool
  logWritten : Bool
  metaWritten : Bool
  deriving DecidableEq, Repr

/-- The meta file is replaced or left as it was. -/
def saveMetaWith (now : Instant) (written : Bool) (files : ConversationFiles)
    (meta_ : ConversationMeta) :
    ConversationFiles := if written then saveMeta now files meta_ else files

/-- An append reports success when its line was written and a meta file that exists was updated. -/
def appendMessageWith (serde : SerdeJson) (now : Instant) (line : LineWrite) (metaWritten : Bool)
    (files : ConversationFiles) (message : Message) : ConversationFiles × Bool :=
  match line with
  | .unopened => (files, false)
  | .torn bytes => (appendMessageCut serde files message bytes, false)
  | .whole =>
      if metaWritten then (appendMessage serde now files message, true)
      else (appendBytes files (Utf8.encode (logLine serde message)), files.metaFile.isNone)

/-- A save reads the log, rewrites it and then writes the meta file. -/
def saveConversationWith (serde : SerdeJson) (now : Instant) (outcome : SaveOutcome)
    (files : ConversationFiles) (conv : Conversation) : ConversationFiles × Except Error Unit :=
  match readMessageLog serde files with
  | .error error => (files, .error error)
  | .ok onDisk =>
      if !outcome.logRead then (files, .error .ioError)
      else if diverged onDisk conv.messages then (files, .error (.historyDiverged conv.meta_.id))
      else
        let meta_ := match conv.messages.find? (·.role = .user) with
          | some firstUser => conv.meta_.fillTitleFrom firstUser
          | none => conv.meta_
        if !outcome.logWritten then (files, .error .ioError)
        else
          (saveMetaWith now outcome.metaWritten (writeMessageLog serde files conv.messages) meta_,
            if outcome.metaWritten then .ok () else .error .ioError)

/-- Loads the conversation of a turn or creates it. -/
def resolveConversationWith (serde : SerdeJson) (now : Instant) (outcome : SaveOutcome)
    (files : ConversationFiles)
    (id : Uuid) (model provider : Option String) (skills : List String) :
    ConversationFiles × Except Error Conversation :=
  if files.metaFile.isSome then (files, loadConversation serde files id)
  else
    let conv : Conversation := ⟨.new now id model provider skills, []⟩
    let (files, saved) := saveConversationWith serde now outcome files conv
    (files, saved.map fun _ => conv)

/-- A log that is not torn: it is text that ends with its last line, and every line
with text on it is a message. -/
def WholeLog (serde : SerdeJson) (files : ConversationFiles) (messages : List Message) : Prop :=
  ∃ text, files.log.getD [] = Utf8.encode text ∧ Lines.Terminated text ∧
    ((Lines.lines text).filter fun line => !Lines.isBlank line).map serde.fromText =
      messages.map some

section Saves
variable {serde : SerdeJson} {now : Instant} {files : ConversationFiles} {conv : Conversation}

/-- Without failures a save is the one that was described before. -/
theorem saveConversationWith_ok :
    saveConversationWith serde now ⟨true, true, true⟩ files conv =
      match saveConversation serde now files conv with
      | .ok saved => (saved, .ok ())
      | .error error => (files, .error error) := by
  unfold saveConversationWith saveConversation
  cases readMessageLog serde files with
  | error error => rfl
  | ok onDisk =>
      show (if diverged onDisk conv.messages then _ else _) = _
      simp only [bind, Except.bind]
      split
      · rfl
      · rfl

/-- A save leaves the files as they are, or it found a prefix of the saved
messages in the log and rewrote it. -/
theorem saveConversationWith_cases (serde : SerdeJson) (now : Instant) (outcome : SaveOutcome)
    (files : ConversationFiles) (conv : Conversation) :
    (∃ error, saveConversationWith serde now outcome files conv = (files, .error error)) ∨
      ∃ onDisk meta_, readMessageLog serde files = .ok onDisk ∧ onDisk <+: conv.messages ∧
        saveConversationWith serde now outcome files conv =
          (saveMetaWith now outcome.metaWritten (writeMessageLog serde files conv.messages) meta_,
            if outcome.metaWritten then .ok () else .error .ioError) := by
  unfold saveConversationWith
  split
  · exact .inl ⟨_, rfl⟩
  · next onDisk read =>
    split
    · exact .inl ⟨_, rfl⟩
    · split
      · exact .inl ⟨_, rfl⟩
      · next fine =>
        dsimp only
        split
        · exact .inl ⟨_, rfl⟩
        · exact .inr ⟨onDisk, _, read, (diverged_eq_false _ _).mp (by simpa using fine), rfl⟩

@[simp] theorem saveMetaWith_log (written : Bool) (meta_ : ConversationMeta) :
    (saveMetaWith now written files meta_).log = files.log := by
  unfold saveMetaWith
  split
  · rfl
  · rfl

/-- A save that finds the history diverged changes no file. -/
theorem saveConversationWith_diverged {outcome : SaveOutcome} {id : Uuid}
    (refused : (saveConversationWith serde now outcome files conv).2 =
      .error (.historyDiverged id)) :
    (saveConversationWith serde now outcome files conv).1 = files := by
  rcases saveConversationWith_cases serde now outcome files conv with
    ⟨error, failed⟩ | ⟨onDisk, meta_, _, _, saved⟩
  · rw [failed]
  · rw [saved] at refused
    dsimp only at refused
    split at refused
    · cases refused
    · cases refused

/-- A save that changes the log found a prefix of the saved messages there, and
leaves exactly these messages. -/
theorem saveConversationWith_log (outcome : SaveOutcome) :
    (saveConversationWith serde now outcome files conv).1.log = files.log ∨
      ∃ onDisk, readMessageLog serde files = .ok onDisk ∧ onDisk <+: conv.messages ∧
        (saveConversationWith serde now outcome files conv).1.log =
          (writeMessageLog serde files conv.messages).log := by
  rcases saveConversationWith_cases serde now outcome files conv with ⟨error, failed⟩ |
    ⟨onDisk, meta_, read, part, saved⟩
  · rw [failed]
    exact .inl rfl
  · rw [saved]
    exact .inr ⟨onDisk, read, part, saveMetaWith_log _ _⟩

end Saves

section Logs
variable {serde : SerdeJson} {files after : ConversationFiles} {messages : List Message}
  {message : Message}

theorem parseLines_parsed {lines : List (List Char)}
    (parsed : lines.map serde.fromText = messages.map some)
    (rest : List (List Char)) :
    parseLines serde (lines ++ rest) = (parseLines serde rest).map (messages ++ ·) := by
  induction lines generalizing messages with
  | nil =>
      obtain rfl := List.map_eq_nil_iff.mp parsed.symm
      rw [List.nil_append]
      cases parseLines serde rest <;> rfl
  | cons line lines ih =>
      cases messages with
      | nil => cases parsed
      | cons message messages =>
          obtain ⟨first, others⟩ := List.cons.inj parsed
          rw [List.cons_append, parseLines, first]
          dsimp only
          rw [ih others]
          cases parseLines serde rest <;> rfl

/-- What is written behind a whole log is read behind its messages. -/
theorem WholeLog.read_append (whole : WholeLog serde files messages) {rest : List Char}
    (stored : after.log = some (files.log.getD [] ++ Utf8.encode rest)) :
    readMessageLog serde after =
      (parseLines serde ((Lines.lines rest).filter fun line => !Lines.isBlank line)).map
        (messages ++ ·) := by
  obtain ⟨text, bytes, ended, parsed⟩ := whole
  rw [readMessageLog, stored, bytes, ← Utf8.encode_append]
  simp only [Utf8.decode_encode]
  rw [Lines.lines_append ended, List.filter_append, parseLines_parsed parsed]

/-- A whole log reads back as its messages. -/
theorem WholeLog.read (whole : WholeLog serde files messages) :
    readMessageLog serde files = .ok messages := by
  cases present : files.log with
  | some data =>
      have stored : files.log = some (files.log.getD [] ++ Utf8.encode []) := by
        rw [present, Option.getD_some, Utf8.encode_nil, List.append_nil]
      rw [whole.read_append stored]
      simp [parseLines, Except.map]
  | none =>
      obtain ⟨text, bytes, _, parsed⟩ := whole
      rw [present] at bytes
      have empty : text = [] := by
        have decoded := congrArg Utf8.decode bytes
        rw [Utf8.decode_encode] at decoded
        simpa using decoded.symm
      subst empty
      obtain rfl : messages = [] := List.map_eq_nil_iff.mp parsed.symm
      rw [readMessageLog, present]

/-- Only the log of the files matters. -/
theorem WholeLog.of_log (whole : WholeLog serde files messages) (same : after.log = files.log) :
    WholeLog serde after messages := by
  unfold WholeLog at whole ⊢
  rw [same]
  exact whole

theorem parsed_logText (written : ∀ message ∈ messages, serde.WritesLine message) :
    ((Lines.lines (logText serde messages)).filter fun line => !Lines.isBlank line).map
      serde.fromText =
      messages.map some := by
  have lines := lines_logText written []
  rw [List.append_nil] at lines
  rw [lines, List.map_append, List.map_map]
  simp only [Lines.lines_nil, List.filter_nil, List.map_nil, List.append_nil]
  exact List.map_congr_left fun message member => (written message member).roundTrip

theorem terminated_logText : Lines.Terminated (logText serde messages) := by
  cases messages using List.reverseRecOn with
  | nil => exact .inl rfl
  | append_singleton before last =>
      right
      rw [logText_append, logText_cons, logText_nil, ← List.append_assoc, List.getLast?_concat]

/-- A rewritten log is whole. -/
theorem WholeLog.of_written (written : ∀ message ∈ messages, serde.WritesLine message)
    (stored : after.log = (writeMessageLog serde files messages).log) :
    WholeLog serde after messages := by
  refine ⟨logText serde messages, ?_, terminated_logText, parsed_logText written⟩
  rw [stored]
  rfl

/-- A complete line keeps a log whole. -/
theorem WholeLog.append (whole : WholeLog serde files messages) (written : serde.WritesLine message)
    (stored : after.log = some (files.log.getD [] ++ Utf8.encode (logLine serde message))) :
    WholeLog serde after (messages ++ [message]) := by
  obtain ⟨text, bytes, ended, parsed⟩ := whole
  have single : logLine serde message = logText serde [message] := by simp [logLine]
  have one := parsed_logText (List.forall_mem_singleton.mpr written)
  refine ⟨text ++ logText serde [message], ?_, ?_, ?_⟩
  · rw [stored, Option.getD_some, bytes, single, Utf8.encode_append]
  · right
    rw [← single, logLine, ← List.append_assoc, List.getLast?_concat]
  · rw [Lines.lines_append ended, List.filter_append, List.map_append, parsed, one, List.map_append]

/-- A torn line behind a whole log is dropped, unless all of its text arrived. -/
theorem WholeLog.torn (whole : WholeLog serde files messages) (written : serde.WritesLine message)
    {bytes : Nat} (boundary : Utf8.isCharBoundary (logLine serde message) bytes) :
    ∃ last, (last = [] ∨ last = [message]) ∧
      readMessageLog serde (appendMessageCut serde files message bytes) =
        .ok (messages ++ last) := by
  obtain ⟨kept, lost, split, taken, _⟩ := Utf8.take_encode_of_boundary boundary
  have stored : (appendMessageCut serde files message bytes).log =
      some (files.log.getD [] ++ Utf8.encode kept) := by
    rw [appendMessageCut, appendBytes_log, taken]
  by_cases complete : lost = []
  · rw [complete, List.append_nil] at split
    rw [← split] at stored
    exact ⟨[message], .inr rfl, (whole.append written stored).read⟩
  · have part := prefix_of_cut split complete
    rw [whole.read_append stored]
    by_cases begun : kept = []
    · rw [begun]
      exact ⟨[], .inl rfl, by simp [parseLines, Except.map]⟩
    · have single : '\n' ∉ kept := fun member => written.oneLine (part.subset member)
      have visible := written.notBlank part begun []
      rw [List.append_nil] at visible
      rw [Lines.lines_unterminated single begun, List.filter_cons_of_pos (by simp [visible]),
        List.filter_nil]
      by_cases same : kept = serde.toText message
      · refine ⟨[message], .inr rfl, ?_⟩
        rw [same, parseLines, written.roundTrip]
        rfl
      · refine ⟨[], .inl rfl, ?_⟩
        rw [parseLines, written.noPrefix kept part same]
        rfl

/-- After an append of any outcome the log reads as before, perhaps with the message, and a reported
success has kept it whole. -/
theorem WholeLog.appendWith (whole : WholeLog serde files messages)
    (written : serde.WritesLine message)
    {line : LineWrite} (boundary : line.AtBoundary serde message) (now : Instant)
    (metaWritten : Bool) :
    (∃ last, (last = [] ∨ last = [message]) ∧
      readMessageLog serde (appendMessageWith serde now line metaWritten files message).1 =
        .ok (messages ++ last)) ∧
    ((appendMessageWith serde now line metaWritten files message).2 = true →
      WholeLog serde (appendMessageWith serde now line metaWritten files message).1
        (messages ++ [message])) := by
  cases line with
  | unopened =>
    exact ⟨⟨[], .inl rfl, by rw [List.append_nil]; exact whole.read⟩, by simp [appendMessageWith]⟩
  | torn bytes => exact ⟨whole.torn written boundary, by simp [appendMessageWith]⟩
  | whole =>
      have grown : WholeLog serde (appendMessageWith serde now .whole metaWritten files message).1
          (messages ++ [message]) := by
        apply whole.append written
        cases metaWritten with
        | true => exact appendMessage_log serde now files message
        | false => exact appendBytes_log files _
      exact ⟨⟨[message], .inr rfl, grown.read⟩, fun _ => grown⟩

end Logs

end Openheim.Memory
