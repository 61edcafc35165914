import Openheim.Core.RunTermination
import Openheim.Tui.ActiveModel

/-
This file shows that the terminal interface is never left busy: whenever it shows a turn at work,
something is on its way that ends this.
-/

namespace Openheim.Tui
open Openheim.Runtime

/-- The status after an event of a turn. -/
def statusAfterEvent (status : Status) : StreamEvent → Status
  | .llmResponse _ | .thinkingContent _ => .streaming
  | .toolCall _ _ _ => .thinking
  | .finished _ _ => .idle
  | _ => status

/-- The status after an update. -/
def AgentUpdate.statusAfter (status : Status) : AgentUpdate → Status
  | .stream event => statusAfterEvent status event
  | .error _ | .newSession _ => .idle
  | _ => status

/-- The status that is left when every update has arrived. -/
def TuiState.finalStatus (s : TuiState) : Status :=
  s.updates.foldl AgentUpdate.statusAfter s.app.status

/-- The interface has asked for a turn or a session that the task has not begun. -/
def TuiState.Asked (s : TuiState) : Prop := ∃ command ∈ s.app.channels.commands, command.starts

/-- The task works on a turn or a new session. -/
def TaskStage.starting : TaskStage → Bool
  | .handling command => command.starts
  | .prompting _ | .started _ => true
  | _ => false

section Updates
variable {app : App} {status : Status} {updates : List AgentUpdate}

/-- Items that are pushed leave the status. -/
theorem pushAll_status (app : App) (items : List ChatItem) :
    (items.foldl App.push app).status = app.status := by
  obtain ⟨transcript, frame⟩ := App.pushAll_frame app items
  rw [frame]

/-- An update changes the status as it tells. -/
theorem status_handleUpdate (app : App) (update : AgentUpdate) :
    (app.handleUpdate update).status = update.statusAfter app.status := by
  cases update with
  | stream event => cases event <;> rfl
  | sessionList sessions => cases sessions <;> rfl
  | history items => exact pushAll_status app items
  | newSession items =>
      rw [App.handleUpdate, pushAll_status]
      rfl
  | error | notice | modelChanged | usage => rfl

/-- Updates change the status one after the other. -/
theorem status_foldl (app : App) (updates : List AgentUpdate) :
    (updates.foldl App.handleUpdate app).status =
      updates.foldl AgentUpdate.statusAfter app.status := by
  induction updates generalizing app with
  | nil => rfl
  | cons update updates ih => rw [List.foldl_cons, ih, status_handleUpdate, List.foldl_cons]

/-- Updates set the status whatever it was, or leave it alone. -/
theorem statusAfter_set_or_kept (updates : List AgentUpdate) :
    (∃ set, ∀ status, updates.foldl AgentUpdate.statusAfter status = set) ∨
      ∀ status, updates.foldl AgentUpdate.statusAfter status = status := by
  induction updates using List.reverseRecOn with
  | nil => exact .inr fun _ => rfl
  | append_singleton updates update ih =>
      have one : (∃ set, ∀ status, update.statusAfter status = set) ∨ ∀ status,
          update.statusAfter status = status := by
        cases update with
        | stream event =>
            cases event with
            | llmResponse | thinkingContent | toolCall | finished => exact .inl ⟨_, fun _ => rfl⟩
            | _ => exact .inr fun _ => rfl
        | error | newSession => exact .inl ⟨_, fun _ => rfl⟩
        | _ => exact .inr fun _ => rfl
      simp only [List.foldl_append, List.foldl_cons, List.foldl_nil]
      rcases one with ⟨set, sets⟩ | keeps
      · exact .inl ⟨set, fun status => sets _⟩
      · simpa only [keeps] using ih

end Updates

section Steps
variable {client : Client} {s t : TuiState} {action : TaskAction}

/-- Updates in flight change the status that will be shown. -/
theorem finalStatus_send (s : TuiState) (updates : List AgentUpdate) :
    (s.send updates).finalStatus = updates.foldl AgentUpdate.statusAfter s.finalStatus :=
  List.foldl_append

/-- A run that returns a result has sent its closing event last. -/
theorem run_sends_finished {json : Openheim.SerdeJson} {run after : AgentRun} {action : AgentAction}
    {result : AgentResult} (stepped : run.step json action = some after) (own : action ≠ .cancel)
    (returned : after.phase = .returned (.ok result)) :
    ∃ extra response used, after.events.drop run.events.length = extra ++
      [.finished response used] := by
  cases AgentRun.step_end stepped with
  | cancel fires => exact absurd fires own
  | begin _ _ _ _ phase =>
      rw [returned] at phase
      cases phase
  | stay _ _ _ phase =>
      rw [returned] at phase
      cases phase
  | fail _ error _ phase =>
      rw [returned] at phase
      cases phase
  | finish middle goesOn reason _ _ ends =>
      obtain ⟨extra, added, _⟩ := goesOn.events
      refine ⟨extra, middle.finalResponse, middle.iterationsUsed, ?_⟩
      rw [ends]
      show (middle.events ++ [_]).drop run.events.length = _
      rw [added, List.append_assoc, List.drop_left]

/-- While the interface stays busy after every update, it has asked for something that ends, or the
task is at work on it. A turn that returned has made it idle. -/
structure BusyKnown (s : TuiState) : Prop where
  alive : s.app.channels.receiverAlive = true
  other : ∀ command, s.task.stage = .handling command → command.isPrompt = false
  busy : s.finalStatus = .idle ∨ s.Asked ∨ s.task.stage.starting = true
  ended : ∀ run result, s.task.stage = .prompting (some run) → run.phase = .returned (.ok result) →
    s.finalStatus = .idle ∨ s.Asked

/-- The task stops working on a command, and the interface is idle or has asked for more. -/
theorem BusyKnown.rest (alive : t.app.channels.receiverAlive = true)
    (waiting : t.task.stage = .waiting) (busy : t.finalStatus = .idle ∨ t.Asked) : BusyKnown t where
  alive := alive
  other command stage := by
    rw [waiting] at stage
    cases stage
  busy := busy.imp_right .inl
  ended run result stage := by
    rw [waiting] at stage
    cases stage

/-- A command that fails leaves the interface idle in the end. -/
theorem BusyKnown.fail (alive : s.app.channels.receiverAlive = true) (runtime : AgentState)
    (error : String) :
    BusyKnown (TuiState.fail { s with runtime } error) :=
  .rest alive rfl (.inl (finalStatus_send s [.error error]))

/-- The task takes up a turn. -/
theorem BusyKnown.begin (alive : t.app.channels.receiverAlive = true)
    (prompting : t.task.stage = .prompting none) :
    BusyKnown t where
  alive := alive
  other command stage := by
    rw [prompting] at stage
    cases stage
  busy := .inr (.inr (by rw [prompting]; rfl))
  ended run result stage := by
    rw [prompting] at stage
    cases stage

/-- A command that makes nothing busy leaves the interface idle, or it has asked for more. -/
theorem BusyKnown.idle (known : BusyKnown s) (resting : s.task.stage.starting = false) :
    s.finalStatus = .idle ∨ s.Asked :=
  known.busy.imp_right fun rest => rest.resolve_right (resting ▸ Bool.false_ne_true)

/-- A key or a paste makes the interface busy only when it asks for something that ends. -/
theorem finalStatus_requests {app : App} (alive : s.app.channels.receiverAlive = true)
    (requests : Requests s.app app) :
    (TuiState.finalStatus { s with app } = s.finalStatus ∨
        TuiState.finalStatus { s with app } = .idle ∨
      TuiState.Asked { s with app }) ∧ (s.Asked → TuiState.Asked { s with app }) := by
  obtain ⟨sent, commands, status⟩ := requests.commands alive
  refine ⟨?_, fun ⟨command, member, starts⟩ => ⟨command, by
    show command ∈ app.channels.commands
    rw [commands]
    exact List.mem_append_left _ member, starts⟩⟩
  rcases status with same | idle | ⟨command, member, starts⟩
  · left
    rw [TuiState.finalStatus, same]
    rfl
  · rcases statusAfter_set_or_kept s.updates with ⟨set, sets⟩ | keeps
    · exact .inl ((sets _).trans (sets _).symm)
    · exact .inr (.inl ((keeps _).trans idle))
  · refine .inr (.inr ⟨command, ?_, starts⟩)
    show command ∈ app.channels.commands
    rw [commands]
    exact List.mem_append_right _ member

/-- What a key asks for leaves the interface busy only with a reason. -/
theorem BusyKnown.requests {app : App} (known : BusyKnown s) (requests : Requests s.app app) :
    BusyKnown { s with app } := by
  obtain ⟨final, asked⟩ := finalStatus_requests known.alive requests
  refine ⟨requests.alive.trans known.alive, known.other, ?_, fun run result stage returned => ?_⟩
  · rcases final with same | rest
    · rcases known.busy with idle | already | starting
      · exact .inl (same.trans idle)
      · exact .inr (.inl (asked already))
      · exact .inr (.inr starting)
    · exact rest.imp_right .inl
  · rcases final with same | rest
    · exact (known.ended run result stage returned).imp same.trans asked
    · exact rest

/-- What is left after the first command, when that made nothing busy. -/
theorem Asked.tail {command : AgentCommand} {commands : List AgentCommand} (asked : s.Asked)
    (queued : s.app.channels.commands = command :: commands) (plain : command.starts = false) :
    ∃ other ∈ commands, other.starts := by
  obtain ⟨other, member, starts⟩ := asked
  rw [queued] at member
  rcases List.mem_cons.mp member with rfl | later
  · rw [plain] at starts
    cases starts
  · exact ⟨other, later, starts⟩

/-- A Ctrl-C changes no more of the channels than the number of cancels. -/
theorem cancel_only {channels : AgentChannels} {pressed : Bool}
    (alive : s.app.channels.receiverAlive = true)
    (sent : channels = if pressed then s.app.channels.sendCancel else s.app.channels) :
    ∃ cancel, channels = { s.app.channels with cancel } := by
  cases pressed with
  | false => exact ⟨s.app.channels.cancel, sent⟩
  | true =>
      rw [if_pos rfl, AgentChannels.sendCancel, if_pos alive] at sent
      exact ⟨_, sent⟩

/-- Every step leaves the interface busy only with a reason. -/
theorem BusyKnown.step (known : BusyKnown s) (stepped : s.step client action = some t) :
    BusyKnown t := by
  have keeps {updates : List AgentUpdate} (same : ∀ status,
      updates.foldl AgentUpdate.statusAfter status = status) :
      (s.send updates).finalStatus = s.finalStatus := by rw [finalStatus_send, same]
  cases step_moves stepped with
  | ui event sent moved =>
      by_cases plain : ∀ now outside gone key, event = .key now outside gone key →
        App.isCtrlC key = false
      · exact known.requests (App.requests_step moved sent plain)
      · simp only [not_forall, Bool.not_eq_false] at plain
        obtain ⟨now, outside, gone, key, rfl, pressed⟩ := plain
        obtain ⟨agentConfig, status, channels⟩ := App.step_ctrlC pressed moved
        obtain ⟨cancel, same⟩ := cancel_only known.alive channels
        have counted : BusyKnown (s.setCancel cancel) :=
          ⟨known.alive, known.other, known.busy, known.ended⟩
        exact counted.requests (App.requests_same agentConfig same (.inl status))
  | @deliver update updates waits =>
      have final : TuiState.finalStatus { s with app := s.app.handleUpdate update, updates } =
          s.finalStatus := by
        rw [TuiState.finalStatus, TuiState.finalStatus, waits, status_handleUpdate, List.foldl_cons]
      have channels : (s.app.handleUpdate update).channels = s.app.channels := by
        obtain ⟨transcript, status, contextUsage, overlay, agentConfig, frame⟩ :=
          App.handleUpdate_frame s.app update
        rw [frame]
      have asked : s.Asked →
          TuiState.Asked { s with app := s.app.handleUpdate update, updates } := by
        rw [TuiState.Asked, TuiState.Asked, channels]
        exact id
      exact ⟨channels ▸ known.alive, known.other, known.busy.imp final.trans (Or.imp_left asked),
        fun run result stage returned =>
          (known.ended run result stage returned).imp final.trans asked⟩
  | begin error waiting queued called =>
      rw [TuiState.continueTurn]
      split
      · exact .begin known.alive rfl
      · refine .fail ?_ _ error
        exact known.alive
  | @take error command commands waiting queued other =>
      have busy : s.finalStatus = .idle ∨ (∃ other ∈ commands, other.starts) ∨
          command.starts = true := by
        cases starts : command.starts with
        | true => exact .inr (.inr rfl)
        | false =>
          exact (known.idle (by rw [waiting]; rfl)).imp_right fun asked =>
            .inl (Asked.tail asked queued starts)
      refine ⟨known.alive, ?_, busy, fun _ _ stage => by cases stage⟩
      rintro _ ⟨rfl⟩
      exact other
  | list sessions handling told =>
      have idle := known.idle (by rw [handling]; rfl)
      refine .rest known.alive rfl ?_
      rcases told with ⟨metas, rfl⟩ | ⟨error, rfl⟩
      · exact idle.imp_left (keeps fun _ => rfl).trans
      · exact .inl (finalStatus_send s [.error error])
  | @switch ready error provider model runtime names handling called =>
      have idle := known.idle (by rw [handling]; rfl)
      refine .rest known.alive rfl (idle.imp_left fun idle => ?_)
      exact (finalStatus_send (s.setModel runtime names) [.modelChanged names.1 names.2]).trans idle
  | switchFails ready error handling called => exact .fail known.alive _ error
  | @resume saved warning messages ready error id cwd runtime names handling called =>
      have idle := known.idle (by rw [handling]; rfl)
      refine ⟨known.alive, fun _ stage => (by cases stage), ?_, fun _ _ stage => by cases stage⟩
      refine (idle.imp_left fun idle => ?_).imp_right .inl
      refine (finalStatus_send (s.setModel runtime names) _).trans ?_
      rw [List.foldl_cons]
      split <;> exact idle
  | resumeFails saved warning messages ready error handling called =>
    exact .fail known.alive _ error
  | usage usage restored =>
      have idle := known.idle (by rw [restored]; rfl)
      refine .rest known.alive rfl (idle.imp_left fun idle => (keeps ?_).trans idle)
      cases usage <;> exact fun _ => rfl
  | create chatId ready error handling called =>
      exact ⟨known.alive, fun _ stage => (by cases stage), .inr (.inr rfl),
        fun _ _ stage => by cases stage⟩
  | createFails chatId ready error handling called => exact .fail known.alive _ error
  | createOn ready started called => exact .rest known.alive rfl (.inl (finalStatus_send s _))
  | createOnDefault ready started called =>
    exact .rest known.alive rfl (.inl (finalStatus_send s _))
  | prepare _ action error prepares prompting preparing called =>
      rw [TuiState.continueTurn]
      split
      · exact ⟨known.alive, known.other, known.busy, known.ended⟩
      · exact .fail known.alive _ error
  | launch builder toolsBytes messages prompting found =>
      refine ⟨known.alive, fun _ stage => (by cases stage), .inr (.inr rfl),
        fun run result stage returned => ?_⟩
      cases stage
      cases returned
  | @agent action run after prompting own moved =>
      refine ⟨known.alive, fun _ stage => (by cases stage), .inr (.inr rfl),
        fun other result stage returned => ?_⟩
      obtain rfl : after = other := by
        cases stage
        rfl
      obtain ⟨extra, response, used, finished⟩ := run_sends_finished moved own returned
      left
      refine (finalStatus_send s _).trans ?_
      rw [finished, List.map_append, List.foldl_append]
      rfl
  | @cancel run cancel runtime prompting waits called =>
      refine ⟨known.alive, fun _ stage => (by cases stage), .inr (.inr rfl),
        fun other result stage returned => ?_⟩
      cases run with
      | none => cases stage
      | some run =>
          cases stage
          exact known.ended run result prompting returned
  | @ended run result runtime prompting returned called =>
      refine .rest known.alive rfl ?_
      cases result with
      | error error => exact .inl (finalStatus_send s _)
      | ok result =>
          have quiet : (s.send (turnUpdates client.display (.ok result))).finalStatus =
              s.finalStatus := by
            refine keeps fun status => ?_
            rw [turnUpdates]
            split
            · rfl
            · cases result.stopReason.notice <;> rfl
          exact (known.ended run result prompting returned).imp_left quiet.trans
  | outside action beside called => exact ⟨known.alive, known.other, known.busy, known.ended⟩

/-- At the start the interface is idle. -/
theorem BusyKnown.initial (started : (tuiMachine client).start s) : BusyKnown s := by
  obtain ⟨_, _, session, mcpServers, themeColor, skills, _, _, app, updates, task⟩ := started
  refine .rest ?_ ?_ (.inl ?_)
  · rw [app]
    rfl
  · rw [task]
  · rw [TuiState.finalStatus, updates, app]
    rfl

/-- In every run the interface is busy only with a reason. -/
theorem BusyKnown.of_reachable (reached : (tuiMachine client).Reachable s) : BusyKnown s :=
  reached.invariant (fun _ started => .initial started) fun _ _ _ known _ stepped =>
    known.step stepped

/-- The run of the task is in one of the iterations that are allowed. -/
def TuiState.RunFits (s : TuiState) : Prop := ∀ run, s.task.stage = .prompting (some run) → run.Fits

/-- Every step leaves the loop within its limits. -/
theorem RunFits.step (fits : s.RunFits) (stepped : s.step client action = some t) : t.RunFits := by
  have other {t : TuiState} (stage : ∀ run, t.task.stage ≠ .prompting (some run)) : t.RunFits :=
    fun run prompting => absurd prompting (stage run)
  cases step_moves stepped with
  | ui | deliver | outside => exact fits
  | begin error waiting queued called =>
      rw [TuiState.continueTurn]
      split <;> exact other fun _ stage => by cases stage
  | prepare _ action error prepares prompting preparing called =>
      rw [TuiState.continueTurn]
      split
      · exact fits
      · exact other fun _ stage => by cases stage
  | launch builder toolsBytes messages prompting found =>
      rintro _ ⟨rfl⟩
      exact trivial
  | agent action prompting own moved =>
      rintro _ ⟨rfl⟩
      exact AgentRun.fits_step (fits _ prompting) moved
  | @cancel run cancel runtime prompting waits called =>
      rintro after stage
      cases run with
      | none => cases stage
      | some run =>
          cases stage
          exact fits run prompting
  | _ => exact other fun _ stage => by cases stage

/-- The action is a step of the task that gets on with its command. -/
def TaskAction.works : TaskAction → Bool
  | .ui _ | .deliver | .takeCancel | .outside _ => false
  | _ => true

/-- A call that fails at once is always possible. -/
theorem settingsStep_refused (client : Client) (runtime : AgentState) :
    client.settingsStep runtime (.newSession 0 none false) = some runtime ∧
      (∀ id, client.settingsStep runtime (.loadSession id ⟨none, none⟩ false) = some runtime) ∧
      ∀ id provider model, client.settingsStep runtime (.switchModel id provider model false) =
        some runtime := by
  refine ⟨rfl, fun _ => rfl, fun id provider model => ?_⟩
  simp only [Client.settingsStep, Runtime.settingsStep, withConfig]
  cases client.appConfig.resolveWithProvider client.env provider model <;> rfl

/-- A turn that was begun goes on to its next step. -/
theorem turn_can_step (task : TaskTurn client s) (prompting : s.task.stage = .prompting none) :
    ∃ action, action.works = true ∧ (s.step client action).isSome := by
  obtain ⟨turn, running, _⟩ := task.running (by rw [prompting]; rfl)
  cases stage : turn.stage with
  | locked =>
      refine ⟨.acquireLease true "", rfl, ?_⟩
      simp only [TuiState.step, TuiState.prepareTurn, prompting, agentStep, running, stage, if_true]
      split <;> rfl
  | leased =>
      refine ⟨.prepare true true "", rfl, ?_⟩
      simp only [TuiState.step, TuiState.prepareTurn, prompting, agentStep, running, stage, if_true]
      rfl
  | running =>
      refine ⟨.launch ⟨none, []⟩ 0 [], rfl, ?_⟩
      simp only [TuiState.step, TuiState.launch, prompting, running, stage, if_true]
      rfl

/-- The first command that waits is taken. -/
theorem waiting_can_step (task : TaskTurn client s) (waiting : s.task.stage = .waiting)
    {command : AgentCommand}
    {commands : List AgentCommand} (queued : s.app.channels.commands = command :: commands) :
    ∃ action, action.works = true ∧ (s.step client action).isSome := by
  refine ⟨.receive "", rfl, ?_⟩
  cases command with
  | prompt text =>
      have free : ¬ (s.runtime.opening.isSome ∨ (s.runtime.turns 0).isSome) := by
        rw [task.settled.free, task.idle (by rw [waiting]; rfl)]
        simp
      simp only [TuiState.step, TuiState.receive, waiting, queued, Option.isSome_map, agentStep,
        if_neg free]
      split
      · rfl
      · split
        · rfl
        · split <;> rfl
  | _ =>
      simp only [TuiState.step, TuiState.receive, waiting, queued]
      rfl

/-- While a command is queued or in its hands, the task can take a step. -/
theorem task_can_step (task : TaskTurn client s) (known : BusyKnown s) (fits : s.RunFits)
    (work : s.app.channels.commands ≠ [] ∨ s.task.stage ≠ .waiting) :
    ∃ action, action.works = true ∧ (s.step client action).isSome := by
  obtain ⟨created, loaded, switched⟩ := settingsStep_refused client s.runtime
  cases stage : s.task.stage with
  | waiting =>
      obtain ⟨command, commands, queued⟩ :=
        List.exists_cons_of_ne_nil (work.resolve_right fun busy => busy stage)
      exact waiting_can_step task stage queued
  | handling command =>
      cases command with
      | prompt text =>
          have never : true = false := known.other _ stage
          cases never
      | listSessions =>
          refine ⟨.listed (.error ""), rfl, ?_⟩
          simp only [TuiState.step, stage]
          rfl
      | switchModel provider model =>
          refine ⟨.switched false "", rfl, ?_⟩
          simp only [TuiState.step, TuiState.switched, stage, Client.switchModel, switched,
            Option.isSome_map]
          rfl
      | switchSession id cwd =>
          refine ⟨.resumed ⟨none, none⟩ none [] false "", rfl, ?_⟩
          simp only [TuiState.step, TuiState.resumed, stage, Client.loadSession, loaded,
            Option.isSome_map]
          rfl
      | newSession =>
          refine ⟨.sessionStarted 0 false "", rfl, ?_⟩
          simp only [TuiState.step, TuiState.sessionStarted, stage, Client.newSession, created,
            Option.isSome_map]
          rfl
  | restored id =>
      refine ⟨.usageRead none, rfl, ?_⟩
      simp only [TuiState.step, TuiState.usageRead, stage]
      rfl
  | started id =>
      refine ⟨.sessionSwitched false, rfl, ?_⟩
      simp only [TuiState.step, TuiState.sessionSwitched, stage, Client.switchModel, switched,
        Option.isSome_map]
      rfl
  | prompting run =>
      cases run with
      | none => exact turn_can_step task stage
      | some run =>
          by_cases returned : ∃ result, run.phase = .returned result
          · obtain ⟨result, returned⟩ := returned
            obtain ⟨turn, running, _⟩ := task.running (by rw [stage]; rfl)
            refine ⟨.turnEnded, rfl, ?_⟩
            simp only [TuiState.step, TuiState.turnEnded, stage, returned, agentStep, running,
              Option.isSome_map]
            rfl
          · obtain ⟨action, moves, steps⟩ :=
                AgentRun.can_step client.json (fits run stage) fun result same =>
              returned ⟨result, same⟩
            refine ⟨.agent action, rfl, ?_⟩
            cases action with
            | cancel => cases moves
            | _ =>
                simp only [TuiState.step, TuiState.stepAgent, stage, Option.isSome_map]
                exact steps

end Steps

/-- An interface that stays busy after every update on its way has asked for a turn or a new
session, or the task is at work on one; and while anything is asked of it, the task can go on. -/
theorem never_left_busy {client : Client} {s : TuiState}
    (reached : (tuiMachine client).Reachable s) :
    ((s.updates.foldl App.handleUpdate s.app).status = .idle ∨ s.Asked ∨
        s.task.stage.starting = true) ∧
      (s.app.channels.commands ≠ [] ∨ s.task.stage ≠ .waiting →
        ∃ action, action.works = true ∧ (s.step client action).isSome) := by
  have known := BusyKnown.of_reachable reached
  have fits : s.RunFits := by
    refine reached.invariant (fun s started => ?_) fun _ _ _ fits _ stepped =>
      RunFits.step fits stepped
    obtain ⟨_, _, _, _, _, _, _, _, _, _, task⟩ := started
    intro run stage
    rw [task] at stage
    cases stage
  refine ⟨?_, task_can_step (.of_reachable reached) known fits⟩
  rw [status_foldl]
  exact known.busy

/-- The user has sent a prompt that the task has not received. -/
theorem never_left_busy_sample : greeted.app.status = .thinking ∧ greeted.updates = [] ∧
    ((greeted.updates.foldl App.handleUpdate greeted.app).status = .idle ∨ greeted.Asked ∨
      greeted.task.stage.starting = true) ∧
      (greeted.app.channels.commands ≠ [] ∨ greeted.task.stage ≠ .waiting →
        ∃ action, action.works = true ∧ (greeted.step sampleClient action).isSome) :=
  ⟨rfl, rfl, never_left_busy (Machine.reachable_of_exec greeted_exec.1 greeted_exec.2)⟩

end Openheim.Tui
