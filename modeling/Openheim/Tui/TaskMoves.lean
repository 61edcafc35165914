import Openheim.Tui.AgentTask

/-
What a step of the interface and its agent task does, said once for every step.
-/

namespace Openheim.Tui
open Memory Openheim.Runtime

/-- An action of the runtime that the task does not take. -/
def isOutside : Action → Bool
  | .tick | .rehash _ | .otherProcess _ _ => true
  | _ => false

/-- A step of a turn of the task between its start and its run. -/
def isPreparing : Action → Bool
  | .acquireLease 0 _ | .prepare 0 _ _ => true
  | _ => false

def AgentCommand.isPrompt : AgentCommand → Bool
  | .prompt _ => true
  | _ => false

def TaskAction.prepares : TaskAction → Bool
  | .acquireLease _ _ | .prepare _ _ _ => true
  | _ => false

/-- The outcomes of a step, each with the checks that it has passed. -/
inductive TaskMove (client : Client) (s : TuiState) : TaskAction → TuiState → Prop where
  | ui (event : AppEvent) {app : App} (sent : ∀ update, event ≠ .update update)
      (stepped : s.app.step client.uuid event = some app) :
      TaskMove client s (.ui event) { s with app }
  | deliver {update : AgentUpdate} {updates : List AgentUpdate}
      (waits : s.updates = update :: updates) :
      TaskMove client s .deliver { s with app := s.app.handleUpdate update, updates }
  | begin (error : String) {text : String} {commands : List AgentCommand} {runtime : AgentState}
      (waiting : s.task.stage = .waiting)
      (queued : s.app.channels.commands = .prompt text :: commands)
      (called : agentStep client.uuid client.config s.runtime (.prompt 0 s.task.session) =
        some runtime) :
      TaskMove client s (.receive error)
        ((((s.setCommands commands).setCancel 0).enter (.prompting none)).continueTurn
          error runtime)
  | take (error : String) {command : AgentCommand} {commands : List AgentCommand}
      (waiting : s.task.stage = .waiting)
      (queued : s.app.channels.commands = command :: commands) (other : command.isPrompt = false) :
      TaskMove client s (.receive error) ((s.setCommands commands).enter (.handling command))
  | list (sessions : Except String (List ConversationMeta)) {update : AgentUpdate}
      (handling : s.task.stage = .handling .listSessions)
      (told : (∃ metas, update = .sessionList metas) ∨ ∃ error, update = .error error) :
      TaskMove client s (.listed sessions) ((s.send [update]).enter .waiting)
  | switch (ready : Bool) (error : String) {provider model : String} {runtime : AgentState}
      {names : String × String}
      (handling : s.task.stage = .handling (.switchModel provider model))
      (called : client.switchModel s.runtime s.task.session provider model ready =
        some (runtime, some names)) :
      TaskMove client s (.switched ready error)
        (((s.setModel runtime names).send [.modelChanged names.1 names.2]).enter .waiting)
  | switchFails (ready : Bool) (error : String) {provider model : String} {runtime : AgentState}
      (handling : s.task.stage = .handling (.switchModel provider model))
      (called : client.switchModel s.runtime s.task.session provider model ready =
        some (runtime, none)) :
      TaskMove client s (.switched ready error) (TuiState.fail { s with runtime } error)
  | resume (saved : SavedSettings) (warning : Option String) (messages : List Message)
      (ready : Bool) (error : String)
      {id cwd : String} {runtime : AgentState} {names : String × String}
      (handling : s.task.stage = .handling (.switchSession id cwd))
      (called : client.loadSession s.runtime id saved ready = some (runtime, some names)) :
      TaskMove client s (.resumed saved warning messages ready error)
        (((s.setModel runtime names).send (.history (restoredItems warning messages) ::
          if names ≠ (s.task.provider, s.task.model) then [.modelChanged names.1 names.2]
          else [])).enter (.restored id))
  | resumeFails (saved : SavedSettings) (warning : Option String) (messages : List Message)
      (ready : Bool)
      (error : String) {id cwd : String} {runtime : AgentState}
      (handling : s.task.stage = .handling (.switchSession id cwd))
      (called : client.loadSession s.runtime id saved ready = some (runtime, none)) :
      TaskMove client s (.resumed saved warning messages ready error)
        (TuiState.fail { s with runtime } error)
  | usage (usage : Option (Option Usage)) {id : String} (restored : s.task.stage = .restored id) :
      TaskMove client s (.usageRead usage)
        { s.send (usage.toList.map .usage) with
          task := { s.task with session := id, stage := .waiting } }
  | create (chatId : Uuid) (ready : Bool) (error : String) {id : String} {runtime : AgentState}
      (handling : s.task.stage = .handling .newSession)
      (called : client.newSession s.runtime chatId ready = some (runtime, some id)) :
      TaskMove client s (.sessionStarted chatId ready error)
        (TuiState.enter { s with runtime } (.started id))
  | createFails (chatId : Uuid) (ready : Bool) (error : String) {runtime : AgentState}
      (handling : s.task.stage = .handling .newSession)
      (called : client.newSession s.runtime chatId ready = some (runtime, none)) :
      TaskMove client s (.sessionStarted chatId ready error)
        (TuiState.fail { s with runtime } error)
  | createOn (ready : Bool) {id : String} {runtime : AgentState} {names : String × String}
      (started : s.task.stage = .started id)
      (called : client.switchModel s.runtime id s.task.provider s.task.model ready =
        some (runtime, some names)) :
      TaskMove client s (.sessionSwitched ready)
        { TuiState.send { s with runtime } [.newSession [.systemInfo "─── new session"]] with
          task := { s.task with session := id, stage := .waiting } }
  | createOnDefault (ready : Bool) {id : String} {runtime : AgentState}
      (started : s.task.stage = .started id)
      (called : client.switchModel s.runtime id s.task.provider s.task.model ready =
        some (runtime, none)) :
      TaskMove client s (.sessionSwitched ready)
        { TuiState.send { s with
            runtime } [.modelChanged client.config.providerName client.config.model,
            .newSession [.systemInfo "─── new session"]] with
          task := ⟨id, client.config.providerName, client.config.model, .waiting⟩ }
  | prepare (taken : TaskAction) (action : Action) (error : String) {runtime : AgentState}
      (prepares : taken.prepares) (prompting : s.task.stage = .prompting none)
      (preparing : isPreparing action)
      (called : agentStep client.uuid client.config s.runtime action = some runtime) :
      TaskMove client s taken (s.continueTurn error runtime)
  | launch (builder : PromptBuilder) (toolsBytes : Nat) (messages : List Message) {turn : Turn}
      (prompting : s.task.stage = .prompting none) (found : s.runtime.turns 0 = some turn) :
      TaskMove client s (.launch builder toolsBytes messages)
        (s.enter (.prompting (some
          (.start turn.config (some builder) toolsBytes messages
            (s.runtime.cancelled turn.cancel)))))
  | agent (action : AgentAction) {run after : AgentRun}
      (prompting : s.task.stage = .prompting (some run))
      (own : action ≠ .cancel) (stepped : run.step client.json action = some after) :
      TaskMove client s (.agent action)
        ((s.send ((after.events.drop run.events.length).map .stream)).enter
          (.prompting (some after)))
  | cancel {run : Option AgentRun} {cancel : Nat} {runtime : AgentState}
      (prompting : s.task.stage = .prompting run)
      (waits : s.app.channels.cancel = cancel + 1)
      (called : agentStep client.uuid client.config s.runtime (.cancelSession s.task.session) =
        some runtime) :
      TaskMove client s .takeCancel
        (TuiState.enter { s.setCancel cancel with runtime } (.prompting (run.map fun run =>
          { run with cancelled := run.cancelled || TuiState.fired runtime })))
  | ended {run : AgentRun} {result : Except Error AgentResult} {runtime : AgentState}
      (prompting : s.task.stage = .prompting (some run)) (returned : run.phase = .returned result)
      (called : agentStep client.uuid client.config s.runtime (.finish 0) = some runtime) :
      TaskMove client s .turnEnded
        (TuiState.enter { s.send (turnUpdates client.display result) with runtime } .waiting)
  | outside (action : Action) {runtime : AgentState} (beside : isOutside action)
      (called : agentStep client.uuid client.config s.runtime action = some runtime) :
      TaskMove client s (.outside action) { s with runtime }

section Moves
variable {client : Client} {s t : TuiState}

theorem receive_moves {error : String} (stepped : s.receive client error = some t) :
    TaskMove client s (.receive error) t := by
  unfold TuiState.receive at stepped
  split at stepped
  · next waiting queued =>
    obtain ⟨runtime, called, rfl⟩ := Option.map_eq_some_iff.mp stepped
    exact .begin error waiting queued called
  · next command commands other waiting queued =>
    cases stepped
    refine .take error waiting queued ?_
    cases command with
    | prompt text => exact (other text rfl).elim
    | _ => rfl
  · cases stepped

theorem prepareTurn_moves {taken : TaskAction} {action : Action} {error : String}
    (prepares : taken.prepares)
    (preparing : isPreparing action) (stepped : s.prepareTurn client action error = some t) :
    TaskMove client s taken t := by
  unfold TuiState.prepareTurn at stepped
  split at stepped
  · next prompting =>
    obtain ⟨runtime, called, rfl⟩ := Option.map_eq_some_iff.mp stepped
    exact .prepare taken action error prepares prompting preparing called
  · cases stepped

/-- The two ends of creating a session: on the model of the last one, or on the default model. -/
theorem sessionSwitched_moves {ready : Bool} (stepped : s.sessionSwitched client ready = some t) :
    TaskMove client s (.sessionSwitched ready) t := by
  unfold TuiState.sessionSwitched at stepped
  split at stepped
  · next id started =>
    obtain ⟨⟨runtime, names⟩, called, rfl⟩ := Option.map_eq_some_iff.mp stepped
    cases names with
    | none =>
        have shape := TaskMove.createOnDefault ready started called
        simpa [TuiState.send, TuiState.setModel] using shape
    | some names => exact .createOn ready started called
  · cases stepped

/-- Every step has one of these outcomes. -/
theorem step_moves {action : TaskAction} (stepped : s.step client action = some t) :
    TaskMove client s action t := by
  cases action with
  | ui event =>
      have stepped : s.ui client event = some t := stepped
      unfold TuiState.ui at stepped
      split at stepped
      · cases stepped
      · next other =>
        obtain ⟨app, moved, rfl⟩ := Option.map_eq_some_iff.mp stepped
        exact .ui event other moved
  | deliver =>
      simp only [TuiState.step] at stepped
      split at stepped
      · next waits =>
        cases stepped
        exact .deliver waits
      · cases stepped
  | receive error => exact receive_moves stepped
  | listed sessions =>
      simp only [TuiState.step] at stepped
      split at stepped
      · next handling =>
        cases stepped
        cases sessions with
        | ok metas => exact .list _ handling (.inl ⟨metas, rfl⟩)
        | error error => exact .list _ handling (.inr ⟨error, rfl⟩)
      · cases stepped
  | switched ready error =>
      rw [TuiState.step, TuiState.switched] at stepped
      split at stepped
      · next handling =>
        obtain ⟨⟨runtime, names⟩, called, rfl⟩ := Option.map_eq_some_iff.mp stepped
        cases names with
        | none => exact .switchFails ready error handling called
        | some names => exact .switch ready error handling called
      · cases stepped
  | resumed saved warning messages ready error =>
      rw [TuiState.step, TuiState.resumed] at stepped
      split at stepped
      · next handling =>
        obtain ⟨⟨runtime, names⟩, called, rfl⟩ := Option.map_eq_some_iff.mp stepped
        cases names with
        | none => exact .resumeFails saved warning messages ready error handling called
        | some names => exact .resume saved warning messages ready error handling called
      · cases stepped
  | usageRead usage =>
      rw [TuiState.step, TuiState.usageRead] at stepped
      split at stepped
      · next restored =>
        cases stepped
        exact .usage usage restored
      · cases stepped
  | sessionStarted chatId ready error =>
      rw [TuiState.step, TuiState.sessionStarted] at stepped
      split at stepped
      · next handling =>
        obtain ⟨⟨runtime, id⟩, called, rfl⟩ := Option.map_eq_some_iff.mp stepped
        cases id with
        | none => exact .createFails chatId ready error handling called
        | some id => exact .create chatId ready error handling called
      · cases stepped
  | sessionSwitched ready => exact sessionSwitched_moves stepped
  | acquireLease ioOk error => exact prepareTurn_moves rfl rfl stepped
  | prepare resolved built error => exact prepareTurn_moves rfl rfl stepped
  | launch builder toolsBytes messages =>
      rw [TuiState.step, TuiState.launch] at stepped
      split at stepped
      · next prompting found =>
        split at stepped
        · cases stepped
          exact .launch builder toolsBytes messages prompting found
        · cases stepped
      · cases stepped
  | agent action =>
      have stepped : s.stepAgent client action = some t := stepped
      unfold TuiState.stepAgent at stepped
      split at stepped
      · cases stepped
      · next prompting own _ =>
        obtain ⟨after, moved, rfl⟩ := Option.map_eq_some_iff.mp stepped
        exact .agent _ prompting own moved
      · cases stepped
  | takeCancel =>
      rw [TuiState.step, TuiState.takeCancel] at stepped
      split at stepped
      · next prompting waits =>
        obtain ⟨runtime, called, rfl⟩ := Option.map_eq_some_iff.mp stepped
        exact .cancel prompting waits called
      · cases stepped
  | turnEnded =>
      rw [TuiState.step, TuiState.turnEnded] at stepped
      split at stepped
      · next prompting =>
        split at stepped
        · next returned =>
          obtain ⟨runtime, called, rfl⟩ := Option.map_eq_some_iff.mp stepped
          exact .ended prompting returned called
        · cases stepped
      · cases stepped
  | outside action =>
      simp only [TuiState.step] at stepped
      split at stepped
      · obtain ⟨runtime, called, rfl⟩ := Option.map_eq_some_iff.mp stepped
        exact .outside _ rfl called
      · obtain ⟨runtime, called, rfl⟩ := Option.map_eq_some_iff.mp stepped
        exact .outside _ rfl called
      · obtain ⟨runtime, called, rfl⟩ := Option.map_eq_some_iff.mp stepped
        exact .outside _ rfl called
      · cases stepped

end Moves

end Openheim.Tui
