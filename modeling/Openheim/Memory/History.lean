import Openheim.Core.Error
import Openheim.Library.Lines
import Openheim.Library.Utf8

/-
This file follows `src/memory/history.rs`: the two files of a conversation and the operations on
them.
-/

namespace Openheim.Memory

/-- Persistent metadata of a conversation, stored in its `.json` file. -/
structure ConversationMeta where
  id : Uuid
  createdAt : Instant
  updatedAt : Instant
  model : Option String
  provider : Option String
  title : Option String
  skills : List String
  cwd : Option String
  contextUsage : Option Usage
  deriving DecidableEq, Repr

def ConversationMeta.new (now : Instant) (id : Uuid) (model provider : Option String)
    (skills : List String) :
    ConversationMeta :=
  { id, createdAt := now, updatedAt := now, model, provider, title := none, skills, cwd := none,
    contextUsage := none }

/-- The title is the first 80 characters of the first user message with text. -/
def ConversationMeta.fillTitleFrom (meta_ : ConversationMeta) (message : Message) :
    ConversationMeta :=
  if meta_.title.isNone && message.role = .user then
    match message.text with
    | some text => { meta_ with title := some (String.ofList (text.toList.take 80)) }
    | none => meta_
  else meta_

structure Conversation where
  meta_ : ConversationMeta
  messages : List Message
  deriving DecidableEq, Repr

/-- The JSON library writes a message as text and reads one back. -/
structure SerdeJson where
  toText : Message → List Char
  fromText : List Char → Option Message

/-- The two files of one conversation. The meta file is replaced by a
rename, so it is always whole. -/
structure ConversationFiles where
  metaFile : Option ConversationMeta
  log : Option (List UInt8)
  deriving DecidableEq, Repr

/-- A conversation that was never written has no files. -/
def ConversationFiles.absent : ConversationFiles := ⟨none, none⟩

/-- The lines are read in order; only the last one may be corrupt. -/
def parseLines (serde : SerdeJson) : List (List Char) → Except Error (List Message)
  | [] => .ok []
  | line :: rest =>
      match serde.fromText line with
      | some message => (parseLines serde rest).map (message :: ·)
      | none => if rest.isEmpty then .ok [] else .error .jsonError

/-- Reads the message log, dropping a corrupt last line. -/
def readMessageLog (serde : SerdeJson) (files : ConversationFiles) : Except Error (List Message) :=
  match files.log with
  | none => .ok []
  | some data =>
      match Utf8.decode data with
      | none => .error .ioError
      | some text => parseLines serde ((Lines.lines text).filter fun line => !Lines.isBlank line)

/-- One message occupies one line of the log. -/
def logLine (serde : SerdeJson) (message : Message) : List Char := serde.toText message ++ ['\n']

/-- Rewrites the whole message log. -/
def writeMessageLog (serde : SerdeJson) (files : ConversationFiles) (messages : List Message) :
    ConversationFiles :=
  { files with log := some (Utf8.encode (messages.flatMap (logLine serde))) }

/-- Writes only the meta file and bumps `updated_at`. -/
def saveMeta (now : Instant) (files : ConversationFiles) (meta_ : ConversationMeta) :
    ConversationFiles :=
  { files with metaFile := some { meta_ with updatedAt := now } }

/-- Messages in memory diverge from the log when the log is not a prefix of them. -/
def diverged (onDisk messages : List Message) : Bool :=
  decide (messages.length < onDisk.length) || (onDisk.zip messages).any fun pair => pair.1 ≠ pair.2

/-- Saves a whole conversation unless the log on disk diverged from it. -/
def saveConversation (serde : SerdeJson) (now : Instant) (files : ConversationFiles)
    (conv : Conversation) :
    Except Error ConversationFiles := do
  let onDisk ← readMessageLog serde files
  if diverged onDisk conv.messages then
    throw (.historyDiverged conv.meta_.id)
  let meta_ := match conv.messages.find? (·.role = .user) with
    | some firstUser => conv.meta_.fillTitleFrom firstUser
    | none => conv.meta_
  return saveMeta now (writeMessageLog serde files conv.messages) meta_

/-- The log file gains the given bytes at its end and is created if it is missing. -/
def appendBytes (files : ConversationFiles) (bytes : List UInt8) : ConversationFiles :=
  { files with log := some (files.log.getD [] ++ bytes) }

/-- The meta file follows an appended message if it exists. -/
def touchMeta (now : Instant) (files : ConversationFiles) (message : Message) : ConversationFiles :=
  match files.metaFile with
  | some meta_ => saveMeta now files (meta_.fillTitleFrom message)
  | none => files

/-- Appends one message to the log and updates the meta file. -/
def appendMessage (serde : SerdeJson) (now : Instant) (files : ConversationFiles)
    (message : Message) :
    ConversationFiles :=
  touchMeta now (appendBytes files (Utf8.encode (logLine serde message))) message

/-- The line write of an append stops after some bytes; the meta file is not reached. -/
def appendMessageCut (serde : SerdeJson) (files : ConversationFiles) (message : Message)
    (bytes : Nat) :
    ConversationFiles :=
  appendBytes files ((Utf8.encode (logLine serde message)).take bytes)

/-- Loads a conversation; the meta file must exist. -/
def loadConversation (serde : SerdeJson) (files : ConversationFiles) (id : Uuid) :
    Except Error Conversation :=
  match files.metaFile with
  | none => .error (.conversationNotFound id)
  | some meta_ => return ⟨meta_, ← readMessageLog serde files⟩

/-- Deletes the meta file and the log; the meta file must exist. -/
def deleteConversation (files : ConversationFiles) (id : Uuid) : Except Error ConversationFiles :=
  if files.metaFile.isSome then .ok .absent else .error (.conversationNotFound id)

@[simp] theorem appendBytes_metaFile (files : ConversationFiles) (bytes : List UInt8) :
    (appendBytes files bytes).metaFile = files.metaFile := rfl

@[simp] theorem appendBytes_log (files : ConversationFiles) (bytes : List UInt8) :
    (appendBytes files bytes).log = some (files.log.getD [] ++ bytes) := rfl

@[simp] theorem touchMeta_log (now : Instant) (files : ConversationFiles) (message : Message) :
    (touchMeta now files message).log = files.log := by
  unfold touchMeta
  split <;> rfl

@[simp] theorem touchMeta_isSome (now : Instant) (files : ConversationFiles) (message : Message) :
    (touchMeta now files message).metaFile.isSome = files.metaFile.isSome := by
  unfold touchMeta
  split <;> simp_all [saveMeta]

@[simp] theorem appendMessage_log (serde : SerdeJson) (now : Instant) (files : ConversationFiles)
    (message : Message) : (appendMessage serde now files message).log =
      some (files.log.getD [] ++ Utf8.encode (logLine serde message)) := by
  simp [appendMessage]

@[simp] theorem appendMessage_isSome (serde : SerdeJson) (now : Instant) (files : ConversationFiles)
    (message : Message) :
    (appendMessage serde now files message).metaFile.isSome = files.metaFile.isSome := by
  simp [appendMessage]

/-- Messages that extend the log do not diverge from it, and no others. -/
theorem diverged_eq_false (onDisk messages : List Message) :
    diverged onDisk messages = false ↔ onDisk <+: messages := by
  induction onDisk generalizing messages with
  | nil => simp [diverged]
  | cons head onDisk ih =>
      cases messages with
      | nil => simp [diverged]
      | cons first messages =>
          have tail := ih messages
          simp only [diverged, Bool.or_eq_false_iff, decide_eq_false_iff_not, List.zip_cons_cons,
            List.any_cons, List.length_cons, List.cons_prefix_cons] at tail ⊢
          rw [← tail]
          simp only [decide_not]
          grind

end Openheim.Memory
