import Openheim.Tui.AppRequests
import Openheim.Tui.TaskMoves
import Openheim.Tui.TaskRuntime

/-
This file shows that the model that the terminal interface shows is the one that its session is on,
once the updates on their way have arrived.
-/

namespace Openheim.Tui
open Openheim.Runtime

/-- The provider and the model that the interface shows. -/
def App.shownModel (app : App) : String × String :=
  (app.agentConfig.providerName, app.agentConfig.model)

/-- The model that is shown after an update. -/
def AgentUpdate.modelAfter (names : String × String) : AgentUpdate → String × String
  | .modelChanged provider model => (provider, model)
  | _ => names

/-- The model that is shown when every update has arrived. -/
def TuiState.finalModel (s : TuiState) : String × String :=
  s.updates.foldl AgentUpdate.modelAfter s.app.shownModel

/-- A turn is in the hands of the task. -/
def TaskStage.turning : TaskStage → Bool
  | .prompting _ => true
  | _ => false

/-- The task has a turn in the runtime exactly while it prompts, and
that is a turn of its session. -/
structure TaskTurn (client : Client) (s : TuiState) : Prop where
  settled : Settled client.uuid client.config s.runtime
  running : s.task.stage.turning = true → ∃ turn, s.runtime.turns 0 = some turn ∧
    turn.sessionId = s.task.session
  idle : s.task.stage.turning = false → s.runtime.turns 0 = none

/-- The session that the task goes on with, and the model that it is on. -/
def TuiState.nextSession (client : Client) (s : TuiState) : String × String × String :=
  match s.task.stage with
  | .restored id => (id, s.task.provider, s.task.model)
  | .started id => (id, client.config.providerName, client.config.model)
  | _ => (s.task.session, s.task.provider, s.task.model)

/-- The model of the task is the one that is shown at last, and the one
of its session and its turn. -/
structure ModelKnown (client : Client) (s : TuiState) : Prop where
  shown : s.finalModel = (s.task.provider, s.task.model)
  live : OnModel s.runtime (s.nextSession client).1 (s.nextSession client).2
  turn : ∀ turn, s.runtime.turns 0 = some turn → RunsOn turn (s.task.provider, s.task.model)

section Updates
variable {app : App} {updates : List AgentUpdate}

/-- Items that are pushed leave the model shown. -/
theorem pushAll_agentConfig (app : App) (items : List ChatItem) :
    (items.foldl App.push app).agentConfig = app.agentConfig := by
  obtain ⟨transcript, frame⟩ := App.pushAll_frame app items
  rw [frame]

/-- An update changes the model shown as it tells. -/
theorem shownModel_handleUpdate (app : App) (update : AgentUpdate) :
    (app.handleUpdate update).shownModel = update.modelAfter app.shownModel := by
  cases update with
  | stream event => cases event <;> rfl
  | sessionList sessions => cases sessions <;> rfl
  | history items =>
      rw [App.shownModel, App.handleUpdate, pushAll_agentConfig]
      rfl
  | newSession items =>
      rw [App.shownModel, App.handleUpdate, pushAll_agentConfig]
      rfl
  | error | notice | modelChanged | usage => rfl

/-- Updates change the model shown one after the other. -/
theorem shownModel_foldl (app : App) (updates : List AgentUpdate) :
    (updates.foldl App.handleUpdate app).shownModel =
      updates.foldl AgentUpdate.modelAfter app.shownModel := by
  induction updates generalizing app with
  | nil => rfl
  | cons update updates ih => rw [List.foldl_cons, ih, shownModel_handleUpdate, List.foldl_cons]

end Updates

section Steps
variable {client : Client} {s t : TuiState} {action : TaskAction}

/-- At rest the task has no turn. -/
theorem TaskTurn.rest (settled : Settled client.uuid client.config t.runtime)
    (idle : t.runtime.turns 0 = none) (stage : t.task.stage.turning = false) : TaskTurn client t :=
  ⟨settled, fun turning => absurd turning (stage ▸ Bool.false_ne_true), fun _ => idle⟩

/-- A turn that goes on is that of the session of the task. -/
theorem TaskTurn.continueTurn {runtime : AgentState}
    (settled : Settled client.uuid client.config runtime) (error : String)
    (own : ∀ turn, runtime.turns 0 = some turn → turn.sessionId = s.task.session)
    (stage : s.task.stage.turning = true) : TaskTurn client (s.continueTurn error runtime) := by
  rw [TuiState.continueTurn]
  split
  · next goes =>
    obtain ⟨turn, found⟩ := Option.isSome_iff_exists.mp goes
    exact ⟨settled, fun _ => ⟨turn, found, own turn found⟩,
      fun idle => absurd (stage.symm.trans idle) (by decide)⟩
  · next failed => exact .rest settled (Option.not_isSome_iff_eq_none.mp failed) rfl

/-- A turn that goes on is that of its session. -/
theorem TaskTurn.turn_own (known : TaskTurn client s) (stage : s.task.stage.turning = true)
    {action : Action}
    {runtime : AgentState}
    (called : agentStep client.uuid client.config s.runtime action = some runtime)
    {turn : Turn} (found : runtime.turns 0 = some turn) : turn.sessionId = s.task.session := by
  obtain ⟨current, running, own⟩ := known.running stage
  rcases agentStep_turn called found with ⟨before, same, continues⟩ | ⟨none, _⟩
  · rw [running, Option.some.injEq] at same
    rw [continues, ← same]
    exact own
  · rw [running] at none
    cases none

/-- Every step leaves the turn of the task in its session. -/
theorem TaskTurn.step (known : TaskTurn client s) (stepped : s.step client action = some t) :
    TaskTurn client t := by
  have calm {action : Action} {runtime : AgentState}
      (called : agentStep client.uuid client.config s.runtime action = some runtime)
      (plain : opensSessions action = false)
      (numbered : ∀ number sessionId, action = .prompt number sessionId → number = 0) :
      Settled client.uuid client.config runtime := known.settled.step called plain numbered
  cases step_moves stepped with
  | ui event sent stepped => exact ⟨known.settled, known.running, known.idle⟩
  | deliver waits => exact ⟨known.settled, known.running, known.idle⟩
  | begin error waiting queued called =>
      refine .continueTurn (calm called rfl fun _ _ same => by cases same; rfl) error
        (fun turn found => ?_) rfl
      have idle := known.idle (by rw [waiting]; rfl)
      rcases agentStep_turn called found with ⟨before, same, _⟩ | ⟨_, same, _⟩
      · rw [idle] at same
        cases same
      · rw [Action.prompt.injEq] at same
        exact same.2.symm
  | take error waiting queued other =>
    exact .rest known.settled (known.idle (by rw [waiting]; rfl)) rfl
  | list sessions handling told =>
    exact .rest known.settled (known.idle (by rw [handling]; rfl)) rfl
  | switch ready error handling called =>
      obtain ⟨settled, turns, _⟩ := Client.switchModel_spec known.settled called
      exact .rest settled (turns ▸ known.idle (by rw [handling]; rfl)) rfl
  | switchFails ready error handling called =>
      obtain ⟨settled, turns, _⟩ := Client.switchModel_spec known.settled called
      exact .rest settled (turns ▸ known.idle (by rw [handling]; rfl)) rfl
  | resume saved warning messages ready error handling called =>
      obtain ⟨settled, idle, _⟩ :=
        Client.loadSession_spec known.settled (known.idle (by rw [handling]; rfl)) called
      exact .rest settled idle rfl
  | resumeFails saved warning messages ready error handling called =>
      obtain ⟨settled, idle, _⟩ :=
        Client.loadSession_spec known.settled (known.idle (by rw [handling]; rfl)) called
      exact .rest settled idle rfl
  | usage usage restored => exact .rest known.settled (known.idle (by rw [restored]; rfl)) rfl
  | create chatId ready error handling called =>
      obtain ⟨settled, idle, _⟩ :=
        Client.newSession_spec known.settled (known.idle (by rw [handling]; rfl)) called
      exact .rest settled idle rfl
  | createFails chatId ready error handling called =>
      obtain ⟨settled, idle, _⟩ :=
        Client.newSession_spec known.settled (known.idle (by rw [handling]; rfl)) called
      exact .rest settled idle rfl
  | createOn ready started called =>
      obtain ⟨settled, turns, _⟩ := Client.switchModel_spec known.settled called
      exact .rest settled (turns ▸ known.idle (by rw [started]; rfl)) rfl
  | createOnDefault ready started called =>
      obtain ⟨settled, turns, _⟩ := Client.switchModel_spec known.settled called
      exact .rest settled (turns ▸ known.idle (by rw [started]; rfl)) rfl
  | prepare _ action error prepares prompting preparing called =>
      have turning : s.task.stage.turning = true := by rw [prompting]; rfl
      refine .continueTurn (calm called ?_ fun number sessionId same => ?_) error
        (fun turn found => known.turn_own turning called found) turning
      · cases action with
        | acquireLease | prepare => rfl
        | _ => cases preparing
      · rw [same] at preparing
        cases preparing
  | launch builder toolsBytes messages prompting found =>
      exact ⟨known.settled, fun _ => known.running (by rw [prompting]; rfl), nofun⟩
  | agent action prompting own stepped =>
      exact ⟨known.settled, fun _ => known.running (by rw [prompting]; rfl), nofun⟩
  | cancel prompting waits called =>
      have turning : s.task.stage.turning = true := by rw [prompting]; rfl
      have turns := agentStep_turns called (.inr ⟨_, rfl⟩)
      obtain ⟨turn, running, own⟩ := known.running turning
      exact ⟨calm called rfl nofun, fun _ => ⟨turn, (congrFun turns 0).trans running, own⟩, nofun⟩
  | ended prompting returned called =>
      obtain ⟨turn, running, same⟩ := Option.map_eq_some_iff.mp called
      refine .rest (calm called rfl nofun) ?_ rfl
      rw [← same]
      exact Function.update_self (0 : Nat) none s.runtime.turns
  | outside action beside called =>
      have settled : Settled client.uuid client.config _ := calm called
        (by cases action with | tick | rehash | otherProcess => rfl | _ => cases beside)
        (fun number sessionId same => by rw [same] at beside; cases beside)
      have turns := agentStep_turns called (.inl beside)
      exact ⟨settled, fun turning => turns ▸ known.running turning,
        fun idle => turns ▸ known.idle idle⟩

/-- Updates in flight change the model that will be shown. -/
theorem finalModel_send (s : TuiState) (updates : List AgentUpdate) :
    (s.send updates).finalModel = updates.foldl AgentUpdate.modelAfter s.finalModel :=
  List.foldl_append

theorem finalModel_fail (s : TuiState) (error : String) :
    (s.fail error).finalModel = s.finalModel :=
  finalModel_send s [.error error]

/-- No key and no paste changes the model that is shown. -/
theorem shownModel_step {app next : App} {uuid : UuidCrate} {event : AppEvent}
    (sent : ∀ update, event ≠ .update update) (stepped : app.step uuid event = some next) :
    next.shownModel = app.shownModel := by
  have same : next.agentConfig = app.agentConfig := by
    by_cases plain : ∀ now outside gone key, event = .key now outside gone key →
      App.isCtrlC key = false
    · exact (App.requests_step stepped sent plain).agentConfig
    · simp only [not_forall, Bool.not_eq_false] at plain
      obtain ⟨now, outside, gone, key, rfl, pressed⟩ := plain
      exact (App.step_ctrlC pressed stepped).1
  rw [App.shownModel, same]
  rfl

/-- Events of a run and what its result shows leave the model alone. -/
theorem foldl_modelAfter_of_plain {updates : List AgentUpdate} (names : String × String)
    (plain : ∀ update ∈ updates, ∀ provider model, update ≠ .modelChanged provider model) :
    updates.foldl AgentUpdate.modelAfter names = names := by
  induction updates with
  | nil => rfl
  | cons update updates ih =>
      obtain ⟨first, rest⟩ := List.forall_mem_cons.mp plain
      have same : update.modelAfter names = names := by
        cases update with
        | modelChanged provider model => exact absurd rfl (first provider model)
        | _ => rfl
      rw [List.foldl_cons, same, ih rest]

/-- The end of a turn tells of nothing but a notice or an error. -/
theorem mem_turnUpdates {display : Error → String} {result : Except Error AgentResult}
    {update : AgentUpdate}
    (member : update ∈ turnUpdates display result) :
    (∃ text, update = .notice text) ∨ ∃ text, update = .error text := by
  cases result with
  | ok result =>
      rw [turnUpdates] at member
      split at member
      · exact .inl ⟨_, List.mem_singleton.mp member⟩
      · obtain ⟨text, _, rfl⟩ := List.mem_map.mp member
        exact .inl ⟨text, rfl⟩
  | error error => exact .inr ⟨_, List.mem_singleton.mp member⟩

/-- A turn that goes on stays on its model. -/
theorem ModelKnown.turn_kept (known : ModelKnown client s) {action : Action} {runtime : AgentState}
    (called : agentStep client.uuid client.config s.runtime action = some runtime)
    (goes : ∀ sessionId, action ≠ .prompt 0 sessionId) (turn : Turn)
    (found : runtime.turns 0 = some turn) :
    RunsOn turn (s.task.provider, s.task.model) := by
  rcases agentStep_turn called found with ⟨before, running, continues⟩ | ⟨_, same, _⟩
  · obtain ⟨config, llm⟩ := known.turn before running
    rw [continues]
    exact ⟨config, llm⟩
  · exact absurd same (goes turn.sessionId)

/-- While no turn is in the runtime, none is on a wrong model. -/
theorem runsOn_of_idle {runtime : AgentState} (idle : runtime.turns 0 = none)
    (names : String × String) :
    ∀ turn, runtime.turns 0 = some turn → RunsOn turn names := by
  intro turn found
  rw [idle] at found
  cases found

/-- Every step leaves the model that will be shown the one of the session. -/
theorem ModelKnown.step (known : ModelKnown client s) (task : TaskTurn client s)
    (stepped : s.step client action = some t) : ModelKnown client t := by
  have next := task.step stepped
  have plainLive (stage : s.nextSession client = (s.task.session, s.task.provider, s.task.model)) :
      OnModel s.runtime s.task.session (s.task.provider, s.task.model) := by
    have live := known.live
    rwa [stage] at live
  cases step_moves stepped with
  | ui event sent moved =>
      refine ⟨?_, known.live, known.turn⟩
      rw [TuiState.finalModel, shownModel_step sent moved]
      exact known.shown
  | deliver waits =>
      refine ⟨?_, known.live, known.turn⟩
      rw [TuiState.finalModel, shownModel_handleUpdate, ← List.foldl_cons, ← waits]
      exact known.shown
  | @begin error text commands runtime waiting queued called =>
      have live := plainLive (by rw [TuiState.nextSession, waiting])
      have runs (turn : Turn) (found : runtime.turns 0 = some turn) :
          RunsOn turn (s.task.provider, s.task.model) := by
        rcases agentStep_turn called found with ⟨before, running, _⟩ | ⟨_, same, starts⟩
        · rw [task.idle (by rw [waiting]; rfl)] at running
          cases running
        · rw [Action.prompt.injEq] at same
          exact .start task.settled.clients (same.2 ▸ live) starts
      have still := live.step called (by simp [target])
      rw [TuiState.continueTurn]
      split
      · exact ⟨known.shown, still, runs⟩
      · exact ⟨(finalModel_fail _ error).trans known.shown, still, runs⟩
  | take error waiting queued other =>
      exact ⟨known.shown, plainLive (by rw [TuiState.nextSession, waiting]), known.turn⟩
  | list sessions handling told =>
      refine ⟨?_, plainLive (by rw [TuiState.nextSession, handling]), known.turn⟩
      refine (finalModel_send s _).trans ((foldl_modelAfter_of_plain _ ?_).trans known.shown)
      rcases told with ⟨metas, rfl⟩ | ⟨error, rfl⟩ <;> simp
  | @switch ready error provider model runtime names handling called =>
      obtain ⟨_, _, _, moved⟩ := Client.switchModel_spec task.settled called
      obtain ⟨_, live⟩ := moved names rfl
      exact ⟨finalModel_send (s.setModel runtime names) [.modelChanged names.1 names.2], live,
        runsOn_of_idle (next.idle rfl) _⟩
  | switchFails ready error handling called =>
      obtain ⟨_, _, kept, _⟩ := Client.switchModel_spec task.settled called
      obtain rfl := kept rfl
      exact ⟨(finalModel_fail s error).trans known.shown,
        plainLive (by rw [TuiState.nextSession, handling]), known.turn⟩
  | @resume saved warning messages ready error id cwd runtime names handling called =>
      obtain ⟨_, _, _, loaded⟩ :=
        Client.loadSession_spec task.settled (task.idle (by rw [handling]; rfl)) called
      refine ⟨?_, loaded names rfl, runsOn_of_idle (next.idle rfl) _⟩
      refine (finalModel_send (s.setModel runtime names) _).trans ?_
      rw [List.foldl_cons]
      split
      · rfl
      · next same =>
        rw [not_not] at same
        exact known.shown.trans same.symm
  | resumeFails saved warning messages ready error handling called =>
      obtain ⟨_, _, kept, _⟩ :=
        Client.loadSession_spec task.settled (task.idle (by rw [handling]; rfl)) called
      exact ⟨(finalModel_fail _ error).trans known.shown,
        kept rfl _ _ (plainLive (by rw [TuiState.nextSession, handling])),
          runsOn_of_idle (next.idle rfl) _⟩
  | usage usage restored =>
      have live := known.live
      rw [TuiState.nextSession, restored] at live
      refine ⟨?_, live, known.turn⟩
      refine (finalModel_send s _).trans ((foldl_modelAfter_of_plain _ ?_).trans known.shown)
      cases usage <;> simp
  | create chatId ready error handling called =>
      obtain ⟨_, _, _, made⟩ :=
        Client.newSession_spec task.settled (task.idle (by rw [handling]; rfl)) called
      exact ⟨known.shown, made _ rfl, runsOn_of_idle (next.idle rfl) _⟩
  | createFails chatId ready error handling called =>
      obtain ⟨_, _, kept, _⟩ :=
        Client.newSession_spec task.settled (task.idle (by rw [handling]; rfl)) called
      obtain rfl := kept rfl
      exact ⟨(finalModel_fail s error).trans known.shown,
        plainLive (by rw [TuiState.nextSession, handling]), known.turn⟩
  | createOn ready started called =>
      obtain ⟨_, _, _, moved⟩ := Client.switchModel_spec task.settled called
      obtain ⟨rfl, live⟩ := moved _ rfl
      exact ⟨(finalModel_send s _).trans known.shown, live, runsOn_of_idle (next.idle rfl) _⟩
  | createOnDefault ready started called =>
      obtain ⟨_, _, kept, _⟩ := Client.switchModel_spec task.settled called
      obtain rfl := kept rfl
      have live := known.live
      rw [TuiState.nextSession, started] at live
      exact ⟨finalModel_send s _, live, runsOn_of_idle (next.idle rfl) _⟩
  | prepare _ action error prepares prompting preparing called =>
      have plain : target client.uuid action = none ∧ ∀ sessionId,
          action ≠ .prompt 0 sessionId := by
        cases action with
        | acquireLease | prepare => exact ⟨rfl, by rintro _ ⟨⟩⟩
        | _ => cases preparing
      have live :=
        (plainLive (by rw [TuiState.nextSession, prompting])).step called
          (by rw [plain.1]; rintro ⟨⟩)
      have runs := known.turn_kept called plain.2
      rw [TuiState.continueTurn]
      split
      · refine ⟨known.shown, ?_, runs⟩
        rw [TuiState.nextSession]
        simp only [prompting]
        exact live
      · exact ⟨(finalModel_fail _ error).trans known.shown, live, runs⟩
  | launch builder toolsBytes messages prompting found =>
      exact ⟨known.shown, plainLive (by rw [TuiState.nextSession, prompting]), known.turn⟩
  | agent action prompting own stepped =>
      refine ⟨?_, plainLive (by rw [TuiState.nextSession, prompting]), known.turn⟩
      refine (finalModel_send s _).trans
        ((foldl_modelAfter_of_plain _ fun update member => ?_).trans known.shown)
      obtain ⟨event, _, rfl⟩ := List.mem_map.mp member
      rintro _ _ ⟨⟩
  | cancel prompting waits called =>
      have live :=
        (plainLive (by rw [TuiState.nextSession, prompting])).step called (by simp [target])
      exact ⟨known.shown, live, known.turn_kept called (by rintro _ ⟨⟩)⟩
  | ended prompting returned called =>
      have live :=
        (plainLive (by rw [TuiState.nextSession, prompting])).step called (by simp [target])
      refine ⟨?_, live, known.turn_kept called (by rintro _ ⟨⟩)⟩
      refine (finalModel_send s _).trans
        ((foldl_modelAfter_of_plain _ fun update member => ?_).trans known.shown)
      rcases mem_turnUpdates member with ⟨text, rfl⟩ | ⟨text, rfl⟩ <;> rintro _ _ ⟨⟩
  | outside action beside called =>
      have plain : target client.uuid action = none ∧ ∀ sessionId,
          action ≠ .prompt 0 sessionId := by
        cases action with
        | tick | rehash | otherProcess => exact ⟨rfl, by rintro _ ⟨⟩⟩
        | _ => cases beside
      exact ⟨known.shown, known.live.step called (by rw [plain.1]; rintro ⟨⟩),
        known.turn_kept called plain.2⟩

theorem TaskTurn.initial (started : (tuiMachine client).start s) :
    TaskTurn client s ∧ ModelKnown client s := by
  obtain ⟨first, chatId, session, mcpServers, themeColor, skills, fresh, called, app, updates,
    task⟩ := started
  obtain ⟨settled, idle⟩ := Settled.initial fresh
  obtain ⟨now, free, _, made⟩ := Client.newSession_spec settled idle called
  have waiting : s.task.stage = .waiting := by rw [task]
  refine ⟨.rest now free (by rw [waiting]; rfl), ?_, ?_, runsOn_of_idle free _⟩
  · rw [TuiState.finalModel, updates, app, task]
    rfl
  · rw [TuiState.nextSession, task]
    exact made session rfl

/-- In every run the turn of the task is in its session. -/
theorem TaskTurn.of_reachable (reached : (tuiMachine client).Reachable s) : TaskTurn client s :=
  reached.invariant (fun _ started => (TaskTurn.initial started).1) fun _ _ _ known _ stepped =>
    known.step stepped

end Steps

/-- Once the updates on their way have arrived, the interface shows the model that the task is
on, that its session is on between two commands and during a turn, and that a running turn
calls, with its own client. -/
theorem shown_model_is_live {client : Client} {s : TuiState}
    (reached : (tuiMachine client).Reachable s) :
    let shown := (s.updates.foldl App.handleUpdate s.app).shownModel
    shown = (s.task.provider, s.task.model) ∧
      (∀ turn, s.runtime.turns 0 = some turn → RunsOn turn shown) ∧
      (s.task.stage = .waiting ∨ s.task.stage.turning = true →
          OnModel s.runtime s.task.session shown) := by
  have known : TaskTurn client s ∧ ModelKnown client s := by
    refine reached.invariant (fun _ started => TaskTurn.initial started)
      fun s action t known _ stepped => ?_
    exact ⟨known.1.step stepped, known.2.step known.1 stepped⟩
  obtain ⟨_, shown, live, turn⟩ := known
  rw [TuiState.finalModel] at shown
  intro final
  have same : final = (s.task.provider, s.task.model) :=
    (shownModel_foldl s.app s.updates).trans shown
  rw [same]
  refine ⟨rfl, turn, fun stage => ?_⟩
  rw [TuiState.nextSession] at live
  split at live
  · next restored => simp [restored, TaskStage.turning] at stage
  · next started => simp [started, TaskStage.turning] at stage
  · exact live

/-- A client with one local model and no saved conversations. -/
def sampleClient : Client :=
  ⟨Uuid.crate, fun _ => none, bareConfig "ollama", sampleConfig,
    ⟨fun _ => none, fun _ => "\x7b\x7d"⟩, fun _ => "failed"⟩

/-- The interface with a text in its input line, in the session that it started on. -/
def typedStart (text : String) : TuiState where
  app := { App.new sampleConfig sampleClient.appConfig [] none [] with
    input := ⟨Utf8.encode text.toList, (Utf8.encode text.toList).length⟩ }
  updates := []
  task := ⟨sampleText, sampleConfig.providerName, sampleConfig.model, .waiting⟩
  runtime := ((sampleClient.newSession emptyState sampleId true).getD (emptyState, none)).1

/-- The prompt was sent, and the interface waits for the turn. -/
def greeted : TuiState :=
  { typedStart "" with
    app := App.send { (typedStart "").app with
      screen := .chat, status := .thinking, transcript :=
        (Transcript.new.push (.userMessage "hi")).pin } (.prompt "hi") }

/-- The user pastes a greeting and enters it. -/
theorem greeted_exec : (tuiMachine sampleClient).start (typedStart "") ∧
    (tuiMachine sampleClient).exec (typedStart "") [.ui (.paste [] "hi"), .ui (plainKey .enter)] =
      some greeted := by
  refine ⟨⟨emptyState, sampleId, sampleText, [], none, [], emptyState_start, rfl, rfl, rfl, rfl⟩,
    ?_⟩
  have typed : (typedStart "hi").app.input.chars = "hi".toList :=
    congrArg (Option.getD · []) (Utf8.decode_encode _)
  have pasted : (tuiMachine sampleClient).step (typedStart "") (.ui (.paste [] "hi")) =
    some (typedStart "hi") := rfl
  have entered : (typedStart "hi").app.handleEnter plainOutside = greeted.app := by
    rw [App.handleEnter, typed]
    rfl
  rw [Machine.exec, pasted]
  show some { typedStart "hi" with app := (typedStart "hi").app.handleEnter plainOutside } = _
  rw [entered]
  rfl

/-- A turn of a new session is prepared. -/
theorem shown_model_is_live_sample :
    ∃ s turn, (tuiMachine sampleClient).Reachable s ∧ s.runtime.turns 0 = some turn ∧
    let shown := (s.updates.foldl App.handleUpdate s.app).shownModel
    shown = (s.task.provider, s.task.model) ∧
      (∀ turn, s.runtime.turns 0 = some turn → RunsOn turn shown) ∧
      (s.task.stage = .waiting ∨ s.task.stage.turning = true →
          OnModel s.runtime s.task.session shown) := by
  obtain ⟨s, turn, executed, running⟩ : ∃ s turn, (tuiMachine sampleClient).exec greeted
      [.receive "", .acquireLease true "", .prepare true true ""] = some s ∧
          s.runtime.turns 0 = some turn :=
    ⟨_, _, rfl, rfl⟩
  have reached := (Machine.reachable_of_exec greeted_exec.1 greeted_exec.2).exec executed
  exact ⟨s, turn, reached, running, shown_model_is_live reached⟩

end Openheim.Tui
