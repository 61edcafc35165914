import Openheim.Config.Resolve
import Openheim.Core.Uuid
import Openheim.Memory.History
import Openheim.Tui.InputLine
import Openheim.Tui.PermissionQueue
import Openheim.Tui.Transcript

/-
This file follows `src/tui/app.rs`, the state of the terminal interface and what keys, pastes and
updates do to it. What lies outside comes with an event: the time, the files that a command reads or
writes, and which waiting sides of permission requests go away meanwhile.
-/

namespace Openheim.Tui
open Memory

inductive Status where
  | idle
  | thinking
  | streaming
  deriving DecidableEq, Repr

/-- The base screen, under any popup. -/
inductive Screen where
  | welcome
  | chat
  deriving DecidableEq, Repr

inductive ConfigRow where
  | blank
  | header (text : String)
  | entry (key val : String)
  | item (text : String)
  deriving DecidableEq, Repr

/-- The popup over the base screen with its own data. -/
inductive Overlay where
  | modelPicker (items : List (String × String)) (selected : Nat)
  | sessionPicker (sessions : List ConversationMeta) (selected : Nat)
  | configViewer (rows : List ConfigRow) (scroll : Nat)
  | mcpViewer (rows : List ConfigRow) (scroll : Nat)
  | skillsViewer (items : List String) (scroll : Nat)
  | themePicker (selected : Nat)
  deriving DecidableEq, Repr

/-- The accent color and the name it was chosen by. -/
structure Theme where
  color : Color
  name : String
  deriving DecidableEq, Repr

def Theme.named (name : String) : Theme := ⟨themeColor name, name⟩

/-- A request from the interface to the agent task. -/
inductive AgentCommand where
  | prompt (text : String)
  | switchModel (provider model : String)
  | switchSession (id cwd : String)
  | listSessions
  | newSession
  deriving DecidableEq, Repr

inductive AgentUpdate where
  | stream (event : StreamEvent)
  | error (text : String)
  | notice (text : String)
  | modelChanged (provider model : String)
  | usage (usage : Option Usage)
  | sessionList (sessions : List ConversationMeta)
  | history (items : List ChatItem)
  | newSession (items : List ChatItem)
  deriving DecidableEq, Repr

/-- How an MCP server is reached. -/
structure McpServerConfig where
  command : Option String
  args : List String
  url : Option String
  deriving DecidableEq, Repr

/-- The channels to the agent task: the commands and the cancels that it has not received. -/
structure AgentChannels where
  receiverAlive : Bool
  commands : List AgentCommand
  cancel : Nat
  deriving DecidableEq, Repr

namespace AgentChannels

/-- What is sent to a task that is gone is lost. -/
def send (channels : AgentChannels) (command : AgentCommand) : AgentChannels :=
  if channels.receiverAlive then { channels with commands := channels.commands ++ [command] }
  else channels

def sendCancel (channels : AgentChannels) : AgentChannels :=
  if channels.receiverAlive then { channels with cancel := channels.cancel + 1 } else channels

end AgentChannels

structure App where
  transcript : Transcript
  input : InputLine
  spinnerFrame : Nat
  status : Status
  shouldQuit : Bool
  quitArmedUntil : Option Instant
  screen : Screen
  overlay : Option Overlay
  permissions : QueueState
  agentConfig : AgentConfig
  appConfig : AppConfig
  mcpServers : List (String × McpServerConfig)
  themeColor : Option String
  skills : List String
  theme : Theme
  channels : AgentChannels
  contextUsage : Option Usage

inductive KeyCode where
  | char (char : Char)
  | enter
  | esc
  | backspace
  | delete
  | left
  | right
  | up
  | down
  | home
  | toEnd
  | pageUp
  | pageDown
  | other
  deriving DecidableEq, Repr

structure KeyEvent where
  code : KeyCode
  control : Bool
  deriving DecidableEq, Repr

/-- What a key finds outside: the environment, the names of the skills, whether a theme can be
saved, the directory of the process and how an error is shown. -/
structure Outside where
  env : Environment
  listSkills : Except String (List String)
  saveTheme : Except String Unit
  currentDir : String
  display : Error → String

/-- What `:help` shows. -/
def helpText : String :=
  ":help              show this\n:q / :quit         exit\n:new               start a new session\n" ++
  ":sessions          browse and restore saved sessions\n:config            current config\n" ++
  ":models            list available models\n:models <name>     switch to model mid-session\n" ++
  ":mcp               MCP servers\n:skills            available skills\n:theme             change accent color\n" ++
  ":theme <name>      apply color directly\n\n↑/↓  scroll · PgUp/PgDn  page\n" ++
  "Ctrl+C  cancel the running turn · Ctrl+C twice  quit"

/-- How long after a Ctrl-C a second one quits, two seconds. -/
def quitConfirmWindow : Instant := 2000000000

/-- Moves the selection of a list with so many entries. -/
def moveSelection (selected length : Nat) : KeyCode → Nat
  | .up => selected - 1
  | .down => min (selected + 1) (length - 1)
  | _ => selected

def moveScroll (scroll : Nat) : KeyCode → Nat
  | .up => scroll - 1
  | .down => scroll + 1
  | .char char => if char = 'k' then scroll - 1 else if char = 'j' then scroll + 1 else scroll
  | .pageUp => scroll - 5
  | .pageDown => scroll + 5
  | _ => scroll

/-- The prompt for an input: blank lines before it and white space after it are dropped. -/
def promptText (text : List Char) : List Char :=
  let text := text.rdropWhile Lines.isWhitespace
  let blank := text.takeWhile Lines.isWhitespace
  blank.rtakeWhile (· ≠ '\n') ++ text.drop blank.length

/-- The characters of the input. Its bytes are always those of some. -/
def InputLine.chars (line : InputLine) : List Char := (Utf8.decode line.text).getD []

/-- The Unicode category of control characters. -/
def isControl (char : Char) : Bool := char.toNat < 0x20 || (0x7F ≤ char.toNat && char.toNat ≤ 0x9F)

/-- Each carriage return becomes a newline, together with a newline behind it. -/
def normalizeNewlines : List Char → List Char
  | [] => []
  | '\r' :: '\n' :: rest => '\n' :: normalizeNewlines rest
  | '\r' :: rest => '\n' :: normalizeNewlines rest
  | char :: rest => char :: normalizeNewlines rest

/-- A pasted text as it is inserted. -/
def pasteText (text : String) : List Char :=
  (normalizeNewlines text.toList).filter fun char => !isControl char || char = '\n' || char = '\t'

/-- The steps of one `prune_stale`. Before each liveness test some waiting sides go away. -/
def pruneActions (pending : Nat) (gone : List (List Nat)) : List QueueAction :=
  ((gone.headD []).map .expire ++ [.beginPrune]) ++
    ((List.range pending).flatMap fun i => ((gone.drop (i + 1)).headD []).map .expire ++
      [.testNext]) ++ [.endPrune]

namespace App

def push (app : App) (item : ChatItem) : App := { app with transcript := app.transcript.push item }

def send (app : App) (command : AgentCommand) : App :=
  { app with channels := app.channels.send command }

/-- A stale prompt does not stay on screen. -/
def pruneStale (app : App) (gone : List (List Nat)) : Option App :=
  (queueMachine.exec app.permissions (pruneActions app.permissions.queue.pending.length gone)).map
      fun permissions =>
    { app with permissions }

/-- An event of a live turn. -/
def handleStreamEvent (app : App) : StreamEvent → App
  | .llmResponse content =>
      { app with status := .streaming, transcript := app.transcript.appendAssistantText content }
  | .thinkingContent content =>
      { app with status := .streaming, transcript := app.transcript.appendThinking content }
  | .toolCall _ toolName arguments =>
      push { app with status := .thinking } (.toolCall toolName arguments)
  | .toolResult _ _ result isError => app.push (.toolResult result isError)
  | .usage usage => { app with contextUsage := some usage }
  | .contextTrimmed dropped =>
      app.push (.systemInfo (toString dropped ++
        " earlier messages left out of the request to fit the context window"))
  | .finished _ _ => { app with status := .idle }
  | .iterationStart _ | .messageAppended _ => app

def handleUpdate (app : App) : AgentUpdate → App
  | .stream event => app.handleStreamEvent event
  | .error e => push { app with status := .idle } (.err e)
  | .notice notice => app.push (.systemInfo notice)
  | .usage usage => { app with contextUsage := usage }
  | .modelChanged provider model =>
      push { app with agentConfig := { app.agentConfig with providerName := provider, model } }
        (.systemInfo ("switched to " ++ provider ++ " / " ++ model))
  | .sessionList sessions =>
      if sessions.isEmpty then app.push (.systemInfo "no sessions yet")
      else { app with overlay := some (.sessionPicker sessions 0) }
  | .history items => items.foldl push app
  | .newSession items =>
      items.foldl push { app with
        transcript := app.transcript.clear, contextUsage := none, status := .idle }

def quitArmed (app : App) (now : Instant) : Bool :=
  app.quitArmedUntil.any fun until_ => now < until_

/-- The first Ctrl-C cancels the running turn, and a second one soon after it quits. -/
def handleCtrlC (app : App) (now : Instant) : App :=
  if app.quitArmed now then { app with shouldQuit := true }
  else { app with
    channels := if app.status ≠ .idle then app.channels.sendCancel else app.channels
    quitArmedUntil := some (now + quitConfirmWindow) }

def handlePermissionRequest (app : App) (toolName arguments : String) (subagent : Option String) :
    Option App :=
  (queueMachine.step app.permissions (.push toolName arguments subagent)).map fun permissions =>
    { app with permissions }

def decisionLabel : PermissionDecision → String
  | .allowOnce => "allowed"
  | .allowAlways => "always allowed"
  | .rejectOnce => "rejected"
  | .rejectAlways => "always rejected"

/-- Answers the prompt on screen and notes the decision. -/
def resolvePermission (app : App) (decision : PermissionDecision) : Option App :=
  (queueMachine.step app.permissions (.resolve decision)).map fun permissions =>
    match app.permissions.queue.resolve with
    | some (_, call, _) =>
        push { app with permissions } (.systemInfo (decisionLabel decision ++ " " ++ call))
    | none => { app with permissions }

/-- A prompt needs a decision: no key only dismisses it. -/
def handlePermissionKey (app : App) (key : KeyEvent) : Option App :=
  let select (action : QueueAction) :=
    (queueMachine.step app.permissions action).map fun permissions => { app with permissions }
  match key.code with
  | .up => select .selectPrevious
  | .down => select .selectNext
  | .enter => app.permissions.queue.selectedDecision.bind app.resolvePermission
  | .char char =>
      if char = 'y' then app.resolvePermission .allowOnce
      else if char = 'a' then app.resolvePermission .allowAlways
      else if char = 'n' then app.resolvePermission .rejectOnce
      else if char = 'r' then app.resolvePermission .rejectAlways
      else some app
  | _ => some app

def applyTheme (app : App) (outside : Outside) (name : String) : App :=
  let app := { app with
    theme := .named name, transcript := app.transcript.invalidate, themeColor := some name }
  match outside.saveTheme with
  | .ok () => app.push (.systemInfo ("theme set to " ++ name))
  | .error e => app.push (.systemInfo ("theme set to " ++ name ++ " (could not save: " ++ e ++ ")"))

/-- The transcript stays until the new session is confirmed. -/
def startNewSession (app : App) : App :=
  if app.channels.receiverAlive then send { app with status := .thinking } .newSession
  else push { app with status := .idle } (.err "failed to start new session: agent task is gone")

/-- The transcript is cleared, and the history of the session arrives as an update. -/
def openSession (uuid : UuidCrate) (app : App) (outside : Outside)
    (meta_ : ConversationMeta) : App :=
  let app := push { app with transcript := app.transcript.clear, status := .idle }
    (.systemInfo ("─── " ++ meta_.title.getD "(untitled)"))
  let app := match meta_.provider with
    | some providerName =>
        if (app.appConfig.providers.lookup providerName).isSome then app
        else app.push (.systemInfo ("warning: provider '" ++ providerName ++
          "' is not configured; using default provider instead."))
    | none => app
  app.send (.switchSession (uuid.toText meta_.id) (meta_.cwd.getD outside.currentDir))

def configRows (app : App) : List ConfigRow :=
  [.entry "Provider" app.agentConfig.providerName, .entry "Model" app.agentConfig.model,
    .entry "Max iterations" (toString app.agentConfig.maxIterations),
    .entry "Timeout" (toString app.agentConfig.timeoutSecs ++ "s")] ++
  (if app.appConfig.providers.isEmpty then [] else
    .blank :: .header "Providers" :: app.appConfig.providers.map fun entry =>
      .entry (if entry.1 = app.appConfig.defaultProvider then entry.1 ++ "  (default)" else entry.1)
        entry.2.defaultModel) ++
  (if app.mcpServers.isEmpty then [] else
    .blank :: .header "MCP Servers" :: app.mcpServers.map fun entry => .item entry.1)

/-- The rows of one server: its name and how it is reached. -/
def mcpServerRows (name : String) (server : McpServerConfig) : List ConfigRow :=
  let args := " ".intercalate server.args
  .header name ::
    (server.command.toList.map fun cmd => .entry "stdio" (if args.isEmpty then cmd
      else cmd ++ " " ++ args)) ++
    server.url.toList.map (.entry "http")

def mcpRows (app : App) : List ConfigRow :=
  [.blank].intercalate (app.mcpServers.map fun entry => mcpServerRows entry.1 entry.2)

/-- The models of all providers in order. -/
def modelItems (app : App) : List (String × String) :=
  (app.appConfig.providers.flatMap fun entry => entry.2.models.map fun model =>
    (entry.1, model)).mergeSort
    fun a b => decide (a.1 < b.1 ∨ a.1 = b.1 ∧ a.2 ≤ b.2)

def handleCommand (app : App) (outside : Outside) (cmd : List Char) : App :=
  let name := String.ofList (cmd.takeWhile (· ≠ ' '))
  let arg := String.ofList (Lines.trim ((cmd.dropWhile (· ≠ ' ')).drop 1))
  match name with
  | "q" | "quit" => { app with shouldQuit := true }
  | "help" => app.push (.systemInfo helpText)
  | "new" => app.startNewSession
  | "sessions" => app.send .listSessions
  | "config" => { app with overlay := some (.configViewer app.configRows 0) }
  | "mcp" =>
      if app.mcpServers.isEmpty then
        app.push
          (.systemInfo
            "no MCP servers configured\nadd [mcp_servers.<name>] to ~/.openheim/config.toml")
      else { app with overlay := some (.mcpViewer app.mcpRows 0) }
  | "models" =>
      if arg.isEmpty then
        let selected := (app.modelItems.findIdx? fun item => item.2 = app.agentConfig.model).getD 0
        { app with overlay := some (.modelPicker app.modelItems selected) }
      else match app.appConfig.resolve outside.env (some arg) with
        | .ok config => app.send (.switchModel config.providerName config.model)
        | .error e => app.push (.systemInfo ("unknown model: " ++ outside.display e))
  | "skills" =>
      match outside.listSkills with
      | .ok [] =>
          app.push (.systemInfo "no skills available\nadd <name>.md files to ~/.openheim/skills/")
      | .ok items => { app with overlay := some (.skillsViewer items 0) }
      | .error e => app.push (.err e)
  | "theme" =>
      if arg.isEmpty then
        { app with
          overlay := some
            (.themePicker ((themeColors.findIdx? fun n => n = app.theme.name).getD 0)) }
      else if arg ∈ themeColors then app.applyTheme outside arg
      else app.push
        (.systemInfo (":" ++ arg ++ ": unknown theme  (available: " ++
            ", ".intercalate themeColors ++ ")"))
  | unknown => app.push (.systemInfo (":" ++ unknown ++ ": unknown command  (try :help)"))

/-- Enter sends the prompt or runs the command, unless a turn runs or there
is nothing but white space. -/
def handleEnter (app : App) (outside : Outside) : App :=
  let text := app.input.chars
  if app.status ≠ .idle ∨ Lines.isBlank text then app
  else
    let line := String.ofList (promptText text)
    let app := { app with input := app.input.clear, screen := .chat }
    match Lines.trim text with
    | ':' :: command => app.handleCommand outside (Lines.trim command)
    | _ =>
        let app :=
          { app with
            transcript := (app.transcript.push (.userMessage line)).pin, status := .thinking }
        app.send (.prompt line)

/-- One operation on the input line. -/
def editInput (app : App) (op : InputOp) : Option App :=
  (app.input.apply op).map fun input => { app with input }

/-- Scrolls the chat, which the welcome screen does not show. -/
def scrollChat (app : App) (scroll : Transcript → Transcript) : App :=
  if app.screen = .chat then { app with transcript := scroll app.transcript } else app

def handleInputKey (app : App) (outside : Outside) (key : KeyEvent) : Option App :=
  match key.code with
  | .char char => if char = 'u' ∧ key.control then app.editInput .clear
      else app.editInput (.insert char)
  | .enter => some (app.handleEnter outside)
  | .backspace => app.editInput .backspace
  | .delete => app.editInput .delete
  | .left => app.editInput .left
  | .right => app.editInput .right
  | .home => app.editInput .home
  | .toEnd => app.editInput .toEnd
  | .up => some (app.scrollChat (·.scrollUp 1))
  | .down => some (app.scrollChat (·.scrollDown 1))
  | .pageUp => some (app.scrollChat (·.scrollUp 20))
  | .pageDown => some (app.scrollChat (·.scrollDown 20))
  | .esc | .other => some app

/-- What a key does to the popup that was taken out; a popup that stays is put back. An index
without an entry panics. -/
def handleOverlayKey (uuid : UuidCrate) (app : App) (outside : Outside) (key : KeyEvent)
    (overlay : Overlay) :
    Option App :=
  let closed := { app with overlay := none }
  if key.code = .esc then some closed
  else match overlay with
    | .modelPicker items selected =>
        if key.code = .enter then
          let app := { closed with screen := .chat }
          some (match items[selected]? with
            | some (provider, model) => app.send (.switchModel provider model)
            | none => app)
        else some { app with
          overlay := some (.modelPicker items (moveSelection selected items.length key.code)) }
    | .sessionPicker sessions selected =>
        if key.code = .enter then
          some (match sessions[selected]? with
            | some meta_ => openSession uuid { closed with screen := .chat } outside meta_
            | none => app)
        else
          some { app with
            overlay := some
              (.sessionPicker sessions (moveSelection selected sessions.length key.code)) }
    | .themePicker selected =>
        if key.code = .enter then
          themeColors[selected]?.map fun name =>
            applyTheme { closed with screen := .chat } outside name
        else some { app with
          overlay := some (.themePicker (moveSelection selected themeColors.length key.code)) }
    | .configViewer rows scroll =>
        some { app with overlay := some (.configViewer rows (moveScroll scroll key.code)) }
    | .mcpViewer rows scroll =>
        some { app with overlay := some (.mcpViewer rows (moveScroll scroll key.code)) }
    | .skillsViewer items scroll =>
        some { app with overlay := some (.skillsViewer items (moveScroll scroll key.code)) }

/-- Whether the key is Ctrl-C. -/
def isCtrlC (key : KeyEvent) : Bool := key.code = .char 'c' && key.control

/-- The topmost layer gets the key: a permission prompt, then a popup, then the input line. -/
def handleKey (uuid : UuidCrate) (app : App) (now : Instant) (outside : Outside)
    (gone : List (List Nat)) (key : KeyEvent) : Option App :=
  if isCtrlC key then some (app.handleCtrlC now)
  else (pruneStale { app with quitArmedUntil := none } gone).bind fun app =>
    if app.permissions.queue.pending ≠ [] then app.handlePermissionKey key
    else match app.overlay with
      | some overlay => handleOverlayKey uuid app outside key overlay
      | none => app.handleInputKey outside key

/-- A paste never sends, and it is ignored while a prompt or a popup has the focus. -/
def handlePaste (app : App) (gone : List (List Nat)) (text : String) : Option App :=
  (pruneStale { app with quitArmedUntil := none } gone).bind fun app =>
    if app.permissions.queue.pending ≠ [] ∨ app.overlay.isSome then some app
    else app.editInput (.insertStr (String.ofList (pasteText text)))

/-- What a frame leaves behind, and the lines of the chat on it. What
else it shows changes nothing. -/
def draw (app : App) (gone : List (List Nat)) (width height : Nat) : Option (App × List Line) :=
  (app.pruneStale gone).map fun app =>
    match app.screen with
    | .welcome => (app, [])
    | .chat =>
        let drawn := app.transcript.draw width height app.theme.color
        ({ app with transcript := drawn.1 }, drawn.2.1)

end App

/-- What the event loop of `tui::run` hands to the interface. -/
inductive AppEvent where
  | tick
  | key (now : Instant) (outside : Outside) (gone : List (List Nat)) (key : KeyEvent)
  | paste (gone : List (List Nat)) (text : String)
  | resize
  | update (update : AgentUpdate)
  | permissionRequest (toolName arguments : String) (subagent : Option String)
  | draw (gone : List (List Nat)) (width height : Nat)

/-- A step that panics has no successor. -/
def App.step (uuid : UuidCrate) (app : App) : AppEvent → Option App
  | .tick => some { app with
      spinnerFrame := if app.status ≠ .idle then (app.spinnerFrame + 1) % 2 ^ 64
        else app.spinnerFrame }
  | .key now outside gone key => App.handleKey uuid app now outside gone key
  | .paste gone text => app.handlePaste gone text
  | .resize => some { app with transcript := app.transcript.invalidate }
  | .update update => some (app.handleUpdate update)
  | .permissionRequest toolName arguments subagent =>
      app.handlePermissionRequest toolName arguments subagent
  | .draw gone width height => (app.draw gone width height).map Prod.fst

def App.new (agentConfig : AgentConfig) (appConfig : AppConfig)
    (mcpServers : List (String × McpServerConfig))
    (themeColor : Option String) (skills : List String) : App where
  transcript := .new
  input := .empty
  spinnerFrame := 0
  status := .idle
  shouldQuit := false
  quitArmedUntil := none
  screen := .welcome
  overlay := none
  permissions := ⟨⟨[], 0⟩, none, 0, [], []⟩
  agentConfig
  appConfig
  mcpServers
  themeColor
  skills
  theme := .named (themeColor.getD "gray")
  channels := ⟨true, [], 0⟩
  contextUsage := none

/-- All runs of the interface. -/
def appMachine (uuid : UuidCrate) : Machine App AppEvent where
  start app := ∃ agentConfig appConfig mcpServers themeColor skills,
    app = .new agentConfig appConfig mcpServers themeColor skills
  step := App.step uuid

/-- Nothing outside fails. -/
def plainOutside : Outside := ⟨fun _ => none, .ok [], .ok (), "/", fun _ => ""⟩

theorem bareConfig_sorted :
    (([] : List (String × ProviderConfig)).map Prod.fst).Pairwise (· < ·) := .nil

/-- A configuration without providers. -/
def bareConfig (defaultProvider : String) : AppConfig :=
  ⟨defaultProvider, 10, [], bareConfig_sorted⟩

/-- An interface that was just started, for a local model. -/
def startedApp : App :=
  .new ⟨"local", .openAiCompatible, "", "", "small", 10, 120, none, none, false,
    false⟩ (bareConfig "local") [] none []

/-- A key without a modifier, while nobody stops to wait. -/
def plainKey (code : KeyCode) : AppEvent := .key 0 plainOutside [] ⟨code, false⟩

end Openheim.Tui
