import Mathlib.Logic.Function.Basic
import Openheim.Acp.Util
import Openheim.Core.Permission
import Openheim.Core.Uuid
import Openheim.Library.Machine
import Openheim.Memory.History
import Openheim.Runtime.Session

/-
This file follows `src/acp/serve.rs`, and the permission gate and the client I/O of `src/acp/`: the
event loop of one ACP connection handles one message of its client at a time, and each prompt turn
runs in a task of its own.
-/

namespace Openheim.Acp
open Openheim.Memory Openheim.Runtime Openheim.Tools

section Values

inductive RequestId where
  | number (value : Int)
  | text (value : String)
  deriving DecidableEq, Repr

/-- The content of a prompt. -/
inductive PromptBlock where
  | text (text : String)
  | image (data mimeType : String)
  | resourceLink (name uri : String)
  | audio
  | resource
  | other
  deriving DecidableEq, Repr

def convertPromptBlock : PromptBlock → Except Error ContentBlock
  | .text text => .ok (.text text)
  | .image data mimeType => .ok (.image data mimeType)
  | .resourceLink name uri => .ok (.text ("[referenced resource: " ++ name ++ " (" ++ uri ++ ")]"))
  | .audio => .error (.invalidArgument "audio prompt content is not supported")
  | .resource => .error (.invalidArgument "embedded resource prompt content is not supported")
  | .other => .error (.invalidArgument "unsupported prompt content type")

def convertPromptBlocks (blocks : List PromptBlock) : Except Error (List ContentBlock) :=
  blocks.mapM convertPromptBlock

structure ClientCapabilities where
  readTextFile : Bool
  writeTextFile : Bool
  deriving DecidableEq, Repr

/-- The requests of the client. -/
inductive ClientCall where
  | initializeRequest (protocolVersion : Nat) (clientCapabilities : ClientCapabilities)
  | newSession (details : Option Json) (cwd : String)
  | prompt (sessionId : String) (blocks : List PromptBlock)
  | listSessions (cwd : Option String)
  | loadSession (sessionId cwd : String)
  | setSessionConfigOption (sessionId configId : String) (value : Option String)
  | setSessionMode (sessionId modeId : String)
  | other

/-- What the client may answer to a request of the agent. -/
inductive ClientAnswer where
  | selected (optionId : String)
  | cancelled
  | content (text : String)
  | written
  | other
  | failed (error : String)
  deriving DecidableEq, Repr

inductive ClientMessage where
  | request (id : RequestId) (call : ClientCall)
  | cancel (sessionId : String)
  | notification
  | response (number : Nat) (answer : ClientAnswer)

/-- What a turn asks its client for. -/
inductive Question where
  | permission (request : PermissionRequest)
  | readTextFile (path : String) (line limit : Option Nat)
  | writeTextFile (path content : String)
  deriving DecidableEq, Repr

inductive PermissionOptionKind where
  | allowOnce
  | allowAlways
  | rejectOnce
  | rejectAlways
  deriving DecidableEq, Repr

structure PermissionOption where
  id : String
  name : String
  kind : PermissionOptionKind
  deriving DecidableEq, Repr

/-- The requests of the agent. -/
inductive AgentRequest where
  | requestPermission (sessionId : String) (toolCall : AcpToolCall)
      (options : List PermissionOption)
  | readTextFile (sessionId path : String) (line limit : Option Nat)
  | writeTextFile (sessionId path content : String)

structure AcpError where
  code : Int
  data : Option Json

inductive AcpStopReason where
  | endTurn
  | maxTokens
  | maxTurnRequests
  | refusal
  | cancelled
  deriving DecidableEq, Repr

/-- The model selector: the current model, and every configured one with its provider. -/
structure SessionConfigOption where
  current : String
  options : List (String × String)
  deriving DecidableEq, Repr

structure SessionInfo where
  id : String
  cwd : String
  title : Option String
  updatedAt : Instant
  deriving DecidableEq, Repr

inductive Reply where
  | initialized (protocolVersion : Nat) (details : List (String × Json))
  | newSession (sessionId : String) (model : SessionConfigOption) (mode : AgentMode)
  | prompt (stopReason : AcpStopReason)
  | listSessions (sessions : List SessionInfo)
  | loadSession (model : SessionConfigOption) (mode : AgentMode)
  | setSessionConfigOption (model : SessionConfigOption)
  | setSessionMode

inductive ServerMessage where
  | response (id : RequestId) (result : Except AcpError Reply)
  | update (sessionId : String) (update : SessionUpdate)
  | request (number : Nat) (request : AgentRequest)

/-- The calls of the runtime that the event loop waits for. -/
inductive StateCall where
  | newSession (model : Option String) (skills : List String) (cwd : String)
  | listSessions (cwd : Option String)
  | loadSession (sessionId cwd : String)
  | setSessionModel (sessionId modelId : String)
  | setSessionMode (sessionId modeId : String)
  deriving DecidableEq, Repr

structure LoadedSession where
  mode : AgentMode
  messages : List Message
  provider : String
  model : String
  warning : Option String

inductive StateResult where
  | created (result : Except Error String)
  | listed (result : Except Error (List ConversationMeta))
  | loaded (result : Except Error LoadedSession)
  | changed (result : Except Error Unit)

/-- What is served: the tools, the configuration and what is told of
them, and the texts of errors. -/
structure Served where
  json : SerdeJson
  executor : ToolExecutor
  appConfig : AppConfig
  model : String
  about : List (String × Json)
  workDir : String
  errorText : Error → String

end Values

section Permissions

def PermissionRequest.title (request : PermissionRequest) : String :=
  match request.subagent with
  | some subagent => request.toolName ++ " (subagent '" ++ subagent ++ "')"
  | none => request.toolName

/-- The ids of a subagent may repeat those of its parent. -/
def PermissionRequest.clientToolCallId (request : PermissionRequest) : String :=
  match request.subagent with
  | some subagent => "subagent:" ++ subagent ++ ":" ++ request.toolCallId
  | none => request.toolCallId

def permissionOptions : List PermissionOption :=
  [⟨"allow_once", "Allow Once", .allowOnce⟩, ⟨"allow_always", "Allow Always", .allowAlways⟩,
    ⟨"reject_once", "Reject Once", .rejectOnce⟩, ⟨"reject_always", "Reject Always", .rejectAlways⟩]

/-- Any other answer counts as a rejection. -/
def ClientAnswer.decision : ClientAnswer → PermissionDecision
  | .selected "allow_once" => .allowOnce
  | .selected "allow_always" => .allowAlways
  | .selected "reject_always" => .rejectAlways
  | _ => .rejectOnce

/-- A file is asked for only when the client has said that it serves files. -/
def ClientCapabilities.allow (capabilities : ClientCapabilities) : Question → Bool
  | .permission _ => true
  | .readTextFile _ _ _ => capabilities.readTextFile
  | .writeTextFile _ _ => capabilities.writeTextFile

def Question.toRequest (served : Served) (sessionId : String) : Question → AgentRequest
  | .permission request =>
      .requestPermission sessionId
        ⟨PermissionRequest.clientToolCallId request, PermissionRequest.title request,
          toolKindFor request.toolName served.executor, .pending,
            rawInput served.json request.arguments⟩
        permissionOptions
  | .readTextFile path line limit => .readTextFile sessionId path line limit
  | .writeTextFile path content => .writeTextFile sessionId path content

end Permissions

section Replies
variable (served : Served)

def invalidParams (data : String) : AcpError := ⟨-32602, some (.string data)⟩

def methodNotFound : AcpError := ⟨-32601, none⟩

def toAcpError (error : Error) : AcpError :=
  match error with
  | .notFound _ | .conversationNotFound _ => ⟨-32002, some (.string (served.errorText error))⟩
  | .invalidArgument _ | .configError _ => invalidParams (served.errorText error)
  | .sessionLocked sessionId pid host =>
      ⟨-32603,
        some (.object [("kind", .string "session_locked"),
          ("session_id", .string (Uuid.toText sessionId)),
          ("pid", .number (toString pid)), ("host", .string host)])⟩
  | .sessionBusy sessionId =>
      ⟨-32603, some (.object [("kind", .string "session_busy"), ("session_id", .string sessionId)])⟩
  | .httpError status body retryAfter =>
      ⟨-32603, some (.object [("kind", .string "http_error"), ("status", .number (toString status)),
        ("retry_after_secs",
          (retryAfter.map fun wait => Json.number (toString (wait / 1000000000))).getD .null),
        ("body", (served.json.parse body).getD (.string body))])⟩
  | _ => ⟨-32603, some (.string (served.errorText error))⟩

def mapStopReason : StopReason → AcpStopReason
  | .endTurn | .noContent => .endTurn
  | .maxIterations => .maxTurnRequests
  | .maxTokens => .maxTokens
  | .refusal => .refusal
  | .cancelled => .cancelled

def sessionModelConfigOption (current : String) : SessionConfigOption :=
  ⟨current, served.appConfig.providers.flatMap fun provider => provider.2.models.map fun model =>
    (model, provider.1)⟩

def conversationMetasToSessionInfo (metas : List ConversationMeta) : List SessionInfo :=
  metas.map fun meta_ => ⟨Uuid.toText meta_.id, meta_.cwd.getD "/", meta_.title, meta_.updatedAt⟩

/-- What a client learns of the agent at first. -/
def initializeDetails : List (String × Json) :=
  served.about ++ [("work_dir", .string served.workDir),
    ("thinking", .object [("meta_key", .string "kind"), ("meta_value", .string "thinking")])]

/-- A list of texts, if the value is one. -/
def textList : Json → Option (List String)
  | .array items => items.mapM fun item => match item with | .string text => some text | _ => none
  | _ => none

def requestedSkills (details : Option Json) : List String :=
  ((details.bind (Json.get "skills")).bind textList).getD []

def requestedModel (details : Option Json) : Option String :=
  match details.bind (Json.get "model") with
  | some (.string model) => some model
  | _ => none

/-- A loaded session is shown before the reply: a warning first, then the history. -/
def loadedUpdates (loaded : LoadedSession) : List SessionUpdate :=
  (loaded.warning.map fun warning => SessionUpdate.agentMessageChunk
    (.text warning false)).toList ++ replayHistoryMessages served.json served.executor
      loaded.messages

/-- The updates and the reply after a call of the runtime, if the result is one of this call. -/
def finish : StateCall → StateResult → Option (List ServerMessage × Except AcpError Reply)
  | .newSession model _ _, .created result =>
      some ([], (result.mapError (toAcpError served)).map fun sessionId =>
        .newSession sessionId (sessionModelConfigOption served (model.getD served.model)) .code)
  | .listSessions _, .listed result =>
      some ([], (result.mapError (toAcpError served)).map fun metas =>
        .listSessions (conversationMetasToSessionInfo metas))
  | .loadSession sessionId _, .loaded result =>
      some (match result with
        | .ok loaded =>
            ((loadedUpdates served loaded).map (.update sessionId),
              .ok (.loadSession (sessionModelConfigOption served loaded.model) loaded.mode))
        | .error error => ([], .error (toAcpError served error)))
  | .setSessionModel _ modelId, .changed result =>
      some ([], (result.mapError (toAcpError served)).map fun _ =>
        .setSessionConfigOption (sessionModelConfigOption served modelId))
  | .setSessionMode _ _, .changed result =>
      some ([], (result.mapError (toAcpError served)).map fun _ => .setSessionMode)
  | _, _ => none

end Replies

section Connection

/-- What the event loop does with a message that it has taken. -/
inductive Handling where
  | waiting (id : RequestId) (call : StateCall)
  | cancelling (sessionId : String)
  | replying (id : RequestId) (updates : List ServerMessage) (result : Except AcpError Reply)

/-- The task of a prompt turn. What it told of and how it ended are kept for reference. -/
structure PromptTask where
  request : RequestId
  sessionId : String
  prompt : Except Error (List ContentBlock)
  events : List StreamEvent
  outcome : Option (Except AcpError Reply)

/-- The response to a prompt, by the result of its turn. A prompt that
cannot be converted starts none. -/
def PromptTask.response (served : Served) (task : PromptTask) (result : Except Error StopReason) :
    Except AcpError Reply :=
  match task.prompt with
  | .error error => .error (toAcpError served error)
  | .ok _ => (result.mapError (toAcpError served)).map fun stopReason =>
      .prompt (mapStopReason stopReason)

/-- Where a question of a turn stands. A turn that is dropped waits no longer. -/
inductive QuestionState where
  | waiting
  | answered (answer : ClientAnswer)
  | dropped
  deriving DecidableEq, Repr

structure Asked where
  turn : Nat
  question : Question
  state : QuestionState

/-- A message of the server, from a turn or from the event loop. -/
structure Sent where
  turn : Option Nat
  message : ServerMessage

/-- A reply of the event loop, with the updates before it. -/
structure Replied where
  id : RequestId
  updates : List ServerMessage
  result : Except AcpError Reply

/-- One ACP connection. Its messages so far, its ended turns and its settled
questions are kept for reference. -/
structure AcpConnection where
  capabilities : ClientCapabilities
  arrived : List ClientMessage
  inbox : List ClientMessage
  handling : Option Handling
  replied : List Replied
  turns : Nat → Option PromptTask
  spawned : Nat
  questions : Nat → Option Asked
  asked : Nat
  wire : List Sent

def AcpConnection.initial : AcpConnection :=
  ⟨⟨false, false⟩, [], [], none, [], fun _ => none, 0, fun _ => none, 0, []⟩

namespace AcpConnection
variable (served : Served) (c : AcpConnection)

/-- The event loop sends its updates first and then its reply. -/
def reply (id : RequestId) (updates : List ServerMessage) (result : Except AcpError Reply) :
    AcpConnection :=
  { c with
    handling := some (.replying id updates result),
    replied := c.replied ++ [⟨id, updates, result⟩] }

def call (id : RequestId) (call : StateCall) : AcpConnection :=
  { c with handling := some (.waiting id call) }

/-- A prompt turn runs in a task of its own. -/
def spawn (id : RequestId) (sessionId : String) (blocks : List PromptBlock) : AcpConnection :=
  { c with
    turns :=
      Function.update c.turns c.spawned (some ⟨id, sessionId, convertPromptBlocks blocks, [], none⟩)
    spawned := c.spawned + 1 }

def handleRequest (id : RequestId) : ClientCall → AcpConnection
  | .initializeRequest protocolVersion clientCapabilities =>
      { c with capabilities := clientCapabilities }.reply id []
        (.ok (.initialized protocolVersion (initializeDetails served)))
  | .newSession details cwd =>
      c.call id (.newSession (requestedModel details) (requestedSkills details) cwd)
  | .prompt sessionId blocks => c.spawn id sessionId blocks
  | .listSessions cwd => c.call id (.listSessions cwd)
  | .loadSession sessionId cwd => c.call id (.loadSession sessionId cwd)
  | .setSessionConfigOption sessionId configId value =>
      if configId ≠ "model" then
        c.reply id []
          (.error (invalidParams ("unknown session config option '" ++ configId ++ "'")))
      else
        match value with
        | none => c.reply id [] (.error (invalidParams "model config option requires a value id"))
        | some modelId => c.call id (.setSessionModel sessionId modelId)
  | .setSessionMode sessionId modeId => c.call id (.setSessionMode sessionId modeId)
  | .other => c.reply id [] (.error methodNotFound)

/-- A response goes to whoever waits for it; any other is ignored. -/
def handleResponse (number : Nat) (answer : ClientAnswer) : AcpConnection :=
  match c.questions number with
  | some ⟨turn, question, .waiting⟩ =>
      { c with
        questions := Function.update c.questions number (some ⟨turn, question, .answered answer⟩) }
  | _ => c

def handle : ClientMessage → AcpConnection
  | .request id call => c.handleRequest served id call
  | .cancel sessionId => { c with handling := some (.cancelling sessionId) }
  | .notification => c
  | .response number answer => c.handleResponse number answer

/-- Handlers block the event loop, so that a message is taken only between two of them. -/
def take : Option AcpConnection :=
  match c.handling, c.inbox with
  | none, message :: rest => some ({ c with inbox := rest }.handle served message)
  | _, _ => none

/-- The runtime returns from the call of a handler. -/
def returns (result : StateResult) : Option AcpConnection :=
  match c.handling with
  | some (.waiting id call) => (finish served call result).map fun finished =>
      c.reply id finished.1 finished.2
  | _ => none

/-- The event loop sends the next message of its reply. -/
def sendReply : Option AcpConnection :=
  match c.handling with
  | some (.replying id (update :: updates) result) =>
      some { c with
        handling := some (.replying id updates result), wire := c.wire ++ [⟨none, update⟩] }
  | some (.replying id [] result) =>
      some { c with handling := none, wire := c.wire ++ [⟨none, .response id result⟩] }
  | _ => none

/-- The task of a turn that runs. -/
def running (turn : Nat) : Option PromptTask := (c.turns turn).filter fun task =>
    task.outcome.isNone

/-- The running turn tells of an event, of which the client gets an update, if there is one. -/
def event (turn : Nat) (event : StreamEvent) : Option AcpConnection :=
  (c.running turn).bind fun task =>
    match task.prompt with
    | .ok _ =>
        some { c with
          turns :=
            Function.update c.turns turn (some { task with events := task.events ++ [event] })
          wire :=
            c.wire ++ ((streamEventToSessionUpdate served.json served.executor event).map
              fun update => ⟨some turn, .update task.sessionId update⟩).toList }
    | .error _ => none

/-- The running turn asks the client something and waits for the answer. -/
def ask (turn : Nat) (question : Question) : Option AcpConnection :=
  (c.running turn).bind fun task =>
    match task.prompt with
    | .ok _ =>
        if c.capabilities.allow question then
          some { c with
            questions := Function.update c.questions c.asked (some ⟨turn, question, .waiting⟩)
            asked := c.asked + 1
            wire :=
              c.wire ++ [⟨some turn, .request c.asked (question.toRequest served task.sessionId)⟩] }
        else none
    | .error _ => none

/-- The task of a turn ends with its response. -/
def ends (turn : Nat) (result : Except Error StopReason) : Option AcpConnection :=
  (c.running turn).map fun task =>
    { c with
      turns :=
        Function.update c.turns turn
          (some { task with outcome := some (task.response served result) })
      wire := c.wire ++ [⟨some turn, .response task.request (task.response served result)⟩] }

/-- Whoever waits for an answer is dropped. -/
def drop (number : Nat) : Option AcpConnection :=
  match c.questions number with
  | some ⟨turn, question, .waiting⟩ =>
      some { c with
        questions := Function.update c.questions number (some ⟨turn, question, .dropped⟩) }
  | _ => none

end AcpConnection

/-- What can happen on a connection. The runtime and the turns may give any results. -/
inductive AcpAction where
  | arrive (message : ClientMessage)
  | take
  | returns (result : StateResult)
  | cancelled
  | sendReply
  | event (turn : Nat) (event : StreamEvent)
  | ask (turn : Nat) (question : Question)
  | ends (turn : Nat) (result : Except Error StopReason)
  | drop (number : Nat)

def AcpConnection.step (served : Served) (c : AcpConnection) : AcpAction → Option AcpConnection
  | .arrive message =>
      some { c with arrived := c.arrived ++ [message], inbox := c.inbox ++ [message] }
  | .take => c.take served
  | .returns result => c.returns served result
  | .cancelled =>
      match c.handling with
      | some (.cancelling _) => some { c with handling := none }
      | _ => none
  | .sendReply => c.sendReply
  | .event turn event => c.event served turn event
  | .ask turn question => c.ask served turn question
  | .ends turn result => c.ends served turn result
  | .drop number => c.drop number

def acpMachine (served : Served) : Machine AcpConnection AcpAction where
  start c := c = .initial
  step := AcpConnection.step served

end Connection

end Openheim.Acp
