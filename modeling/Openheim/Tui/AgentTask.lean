import Openheim.Core.Agent
import Openheim.Runtime.Settings
import Openheim.Tui.App

/-
This file follows `AgentTask` of `src/tui/mod.rs` and the loop of `run` around it. The interface and
the task run side by side: commands and cancels go one way and updates the other, each over a
channel that keeps their order, and the task works on the sessions of the runtime.
-/

namespace Openheim.Tui
open Memory Openheim.Runtime

/-- An image becomes a placeholder. -/
def chatItem : TranscriptEntry → ChatItem
  | .userText text => .userMessage text
  | .userImage _ _ => .systemInfo "[image attached]"
  | .thinking thinking => .thinking thinking
  | .assistantText text => .assistantMessage text
  | .toolCall _ name arguments => .toolCall name arguments
  | .toolResult _ _ content isError => .toolResult content isError

/-- What a live turn would have shown for one saved message. -/
def messageToChatItems (msg : Message) : List ChatItem := msg.transcript.map chatItem

/-- What is shown of a session that is resumed. -/
def restoredItems (warning : Option String) (messages : List Message) : List ChatItem :=
  warning.toList.map .assistantMessage ++ messages.flatMap messageToChatItems ++
    [.systemInfo "─── session restored"]

/-- What the client of the interface is built from: the crates and the configuration. -/
structure Client where
  uuid : UuidCrate
  env : Environment
  appConfig : AppConfig
  config : AgentConfig
  json : Openheim.SerdeJson
  display : Error → String

namespace Client
variable (client : Client) (runtime : AgentState)

def settingsStep (call : SettingsCall) : Option AgentState :=
  Runtime.settingsStep client.uuid client.env client.appConfig client.config runtime call

/-- A call that put a session into the map goes on until it releases the write lock. -/
def finishOpening (runtime : AgentState) : AgentState :=
  let goOn (s : AgentState) := s.opening.elim s (continueOpening s)
  goOn (goOn (goOn runtime))

/-- `new_session` on the default model, with the id of the session. -/
def newSession (chatId : Uuid) (ready : Bool) : Option (AgentState × Option String) :=
  (client.settingsStep runtime (.newSession chatId none ready)).map fun opened =>
    (finishOpening opened, if ready then some (client.uuid.toText chatId) else none)

/-- `load_session` with the provider and the model that the session is on. -/
def loadSession (sessionId : String) (saved : SavedSettings) (ready : Bool) :
    Option (AgentState × Option (String × String)) :=
  (client.settingsStep runtime (.loadSession sessionId saved ready)).map fun opened =>
    if opened.opening.isNone then (opened, none)
    else
      let runtime := finishOpening opened
      match runtime.opened with
      | some (.ok (.loaded _ _ provider model)) => (runtime, some (provider, model))
      | _ => (runtime, none)

/-- `switch_model` with the provider and the model that it switched to. -/
def switchModel (sessionId provider model : String) (ready : Bool) :
    Option (AgentState × Option (String × String)) :=
  (client.settingsStep runtime (.switchModel sessionId provider model ready)).map fun after =>
    match client.appConfig.resolveWithProvider client.env provider model with
    | .ok config =>
        if ready ∧ (runtime.sessions.lookup sessionId).isSome then
          (after, some (config.providerName, config.model))
        else (after, none)
    | .error _ => (after, none)

end Client

/-- What the task is doing: a turn with its run once that has started, a call of another command, or
what comes after the first call of a command. -/
inductive TaskStage where
  | waiting
  | handling (command : AgentCommand)
  | prompting (run : Option AgentRun)
  | restored (id : String)
  | started (id : String)

/-- The session of the task and the model that it is on. -/
structure AgentTask where
  session : String
  provider : String
  model : String
  stage : TaskStage

/-- The interface, the updates on their way to it, the task and the runtime. -/
structure TuiState where
  app : App
  updates : List AgentUpdate
  task : AgentTask
  runtime : AgentState

/-- What happens next. A call that fails shows its error. -/
inductive TaskAction where
  | ui (event : AppEvent)
  | deliver
  | receive (error : String)
  | listed (sessions : Except String (List ConversationMeta))
  | switched (ready : Bool) (error : String)
  | resumed (saved : SavedSettings) (warning : Option String) (messages : List Message)
      (ready : Bool) (error : String)
  | usageRead (usage : Option (Option Usage))
  | sessionStarted (chatId : Uuid) (ready : Bool) (error : String)
  | sessionSwitched (ready : Bool)
  | acquireLease (ioOk : Bool) (error : String)
  | prepare (resolved built : Bool) (error : String)
  | launch (builder : PromptBuilder) (toolsBytes : Nat) (messages : List Message)
  | agent (action : AgentAction)
  | takeCancel
  | turnEnded
  | outside (action : Action)

/-- What the result of a turn shows. -/
def turnUpdates (display : Error → String) : Except Error AgentResult → List AgentUpdate
  | .ok result =>
      if result.stopReason = .cancelled then [.notice "turn cancelled"]
      else result.stopReason.notice.toList.map .notice
  | .error error => [.error (display error)]

namespace TuiState
variable (client : Client)

def send (s : TuiState) (updates : List AgentUpdate) : TuiState :=
  { s with updates := s.updates ++ updates }

def enter (s : TuiState) (stage : TaskStage) : TuiState := { s with task := { s.task with stage } }

/-- The command ends with an error, and the task takes the next one. -/
def fail (s : TuiState) (error : String) : TuiState := (s.send [.error error]).enter .waiting

/-- The token of the running turn has fired. -/
def fired (runtime : AgentState) : Bool := (runtime.turns 0).any fun turn =>
    runtime.cancelled turn.cancel

/-- The commands that the interface has sent and the task has not received. -/
def setCommands (s : TuiState) (commands : List AgentCommand) : TuiState :=
  { s with app := { s.app with channels := { s.app.channels with commands } } }

def setCancel (s : TuiState) (cancel : Nat) : TuiState :=
  { s with app := { s.app with channels := { s.app.channels with cancel } } }

/-- A turn that is still in the runtime goes on, and one that is not has failed. -/
def continueTurn (s : TuiState) (error : String) (runtime : AgentState) : TuiState :=
  if (runtime.turns 0).isSome then { s with runtime } else fail { s with runtime } error

/-- The task takes the next command. A turn starts at once; cancels from
before it are not meant for it. -/
def receive (s : TuiState) (error : String) : Option TuiState :=
  match s.task.stage, s.app.channels.commands with
  | .waiting, .prompt _ :: commands =>
      (agentStep client.uuid client.config s.runtime (.prompt 0 s.task.session)).map fun runtime =>
        (((s.setCommands commands).setCancel 0).enter (.prompting none)).continueTurn error runtime
  | .waiting, command :: commands => some ((s.setCommands commands).enter (.handling command))
  | _, _ => none

/-- The model of the task and its session are replaced together with the map of sessions. -/
def setModel (s : TuiState) (runtime : AgentState) (names : String × String) : TuiState :=
  { s with runtime, task := { s.task with provider := names.1, model := names.2 } }

def switched (s : TuiState) (ready : Bool) (error : String) : Option TuiState :=
  match s.task.stage with
  | .handling (.switchModel provider model) =>
      (client.switchModel s.runtime s.task.session provider model ready).map fun
        | (runtime, some names) =>
            ((s.setModel runtime names).send [.modelChanged names.1 names.2]).enter .waiting
        | (runtime, none) => fail { s with runtime } error
  | _ => none

/-- The history of a resumed session is sent at once, and its model if that is another. -/
def resumed (s : TuiState) (saved : SavedSettings) (warning : Option String)
    (messages : List Message) (ready : Bool) (error : String) : Option TuiState :=
  match s.task.stage with
  | .handling (.switchSession id _) =>
      (client.loadSession s.runtime id saved ready).map fun
        | (runtime, some names) =>
            let changed := if names ≠ (s.task.provider, s.task.model) then
              [.modelChanged names.1 names.2] else []
            ((s.setModel runtime names).send
              (.history (restoredItems warning messages) :: changed)).enter (.restored id)
        | (runtime, none) => fail { s with runtime } error
  | _ => none

/-- The restored session becomes the session of the task, and its context
size is sent if it can be read. -/
def usageRead (s : TuiState) (usage : Option (Option Usage)) : Option TuiState :=
  match s.task.stage with
  | .restored id =>
      some { s.send (usage.toList.map .usage) with
        task := { s.task with session := id, stage := .waiting } }
  | _ => none

def sessionStarted (s : TuiState) (chatId : Uuid) (ready : Bool) (error : String) :
    Option TuiState :=
  match s.task.stage with
  | .handling .newSession =>
      (client.newSession s.runtime chatId ready).map fun
        | (runtime, some id) => enter { s with runtime } (.started id)
        | (runtime, none) => fail { s with runtime } error
  | _ => none

/-- A new session goes on with the model of the last one, or with the default model
if that no longer resolves. -/
def sessionSwitched (s : TuiState) (ready : Bool) : Option TuiState :=
  match s.task.stage with
  | .started id =>
      (client.switchModel s.runtime id s.task.provider s.task.model ready).map
          fun (runtime, names) =>
        let moved := if names.isSome then { s with runtime }
          else (s.setModel runtime (client.config.providerName, client.config.model)).send
            [.modelChanged client.config.providerName client.config.model]
        let told := moved.send [.newSession [.systemInfo "─── new session"]]
        { told with task := { told.task with session := id, stage := .waiting } }
  | _ => none

/-- The steps of a turn before its run starts. -/
def prepareTurn (s : TuiState) (action : Action) (error : String) : Option TuiState :=
  match s.task.stage with
  | .prompting none => (agentStep client.uuid client.config s.runtime action).map
      (s.continueTurn error)
  | _ => none

/-- The run starts on the messages of the conversation. -/
def launch (s : TuiState) (builder : PromptBuilder) (toolsBytes : Nat) (messages : List Message) :
    Option TuiState :=
  match s.task.stage, s.runtime.turns 0 with
  | .prompting none, some turn =>
      if turn.stage = .running then
        some (s.enter (.prompting (some
          (.start turn.config (some builder) toolsBytes messages
            (s.runtime.cancelled turn.cancel)))))
      else none
  | _, _ => none

/-- The run goes on, and its events are sent as they come. -/
def stepAgent (s : TuiState) (action : AgentAction) : Option TuiState :=
  match s.task.stage, action with
  | _, .cancel => none
  | .prompting (some run), action =>
      (run.step client.json action).map fun after =>
        (s.send ((after.events.drop run.events.length).map .stream)).enter (.prompting (some after))
  | _, _ => none

/-- A cancel fires the token of the running turn. -/
def takeCancel (s : TuiState) : Option TuiState :=
  match s.task.stage, s.app.channels.cancel with
  | .prompting run, cancel + 1 =>
      (agentStep client.uuid client.config s.runtime (.cancelSession s.task.session)).map
          fun runtime =>
        enter { s.setCancel cancel with runtime } (.prompting (run.map fun run =>
          { run with cancelled := run.cancelled || fired runtime }))
  | _, _ => none

/-- The turn returns its result. -/
def turnEnded (s : TuiState) : Option TuiState :=
  match s.task.stage with
  | .prompting (some run) =>
      match run.phase with
      | .returned result =>
          (agentStep client.uuid client.config s.runtime (.finish 0)).map fun runtime =>
            enter { s.send (turnUpdates client.display result) with runtime } .waiting
      | _ => none
  | _ => none

/-- The interface gets every event but the updates, which the task sends. -/
def ui (s : TuiState) : AppEvent → Option TuiState
  | .update _ => none
  | event => (s.app.step client.uuid event).map fun app => { s with app }

/-- One step of the interface, of the task or of what surrounds them. -/
def step (s : TuiState) : TaskAction → Option TuiState
  | .ui event => s.ui client event
  | .deliver =>
      match s.updates with
      | update :: updates => some { s with app := s.app.handleUpdate update, updates }
      | [] => none
  | .receive error => s.receive client error
  | .listed sessions =>
      match s.task.stage with
      | .handling .listSessions =>
          some ((s.send [match sessions with
            | .ok metas => .sessionList metas
            | .error e => .error e]).enter .waiting)
      | _ => none
  | .switched ready error => s.switched client ready error
  | .resumed saved warning messages ready error =>
      s.resumed client saved warning messages ready error
  | .usageRead usage => s.usageRead usage
  | .sessionStarted chatId ready error => s.sessionStarted client chatId ready error
  | .sessionSwitched ready => s.sessionSwitched client ready
  | .acquireLease ioOk error => s.prepareTurn client (.acquireLease 0 ioOk) error
  | .prepare resolved built error => s.prepareTurn client (.prepare 0 resolved built) error
  | .launch builder toolsBytes messages => s.launch builder toolsBytes messages
  | .agent action => s.stepAgent client action
  | .takeCancel => s.takeCancel client
  | .turnEnded => s.turnEnded client
  | .outside action =>
      match action with
      | .tick | .rehash _ | .otherProcess _ _ =>
          (agentStep client.uuid client.config s.runtime action).map fun runtime =>
            { s with runtime }
      | _ => none

end TuiState

/-- The interface starts on a new session with the default model. -/
def tuiMachine (client : Client) : Machine TuiState TaskAction where
  start s := ∃ first chatId session mcpServers themeColor skills,
    (agentMachine client.uuid client.config).start first ∧
    client.newSession first chatId true = some (s.runtime, some session) ∧
    s.app = .new client.config client.appConfig mcpServers themeColor skills ∧ s.updates = [] ∧
    s.task = ⟨session, client.config.providerName, client.config.model, .waiting⟩
  step := TuiState.step client

end Openheim.Tui
