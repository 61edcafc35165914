import Openheim.Tui.BusyStatus

/-
This file shows which Ctrl-C reaches which turn.
-/

namespace Openheim.Tui
open Openheim.Runtime

/-- The user pressed a Ctrl-C that cancels, while these actions ran. -/
def Pressed (client : Client) (first : TuiState) (actions : List TaskAction) : Prop :=
  ∃ early event late s, actions = early ++ .ui event :: late ∧
    (tuiMachine client).exec first early = some s ∧ s.app.cancels event = true

/-- The action takes up a command. -/
def TaskAction.receives : TaskAction → Bool
  | .receive _ => true
  | _ => false

/-- A cancel has reached the turn in the runtime, or it waits for it. -/
def TuiState.CancelSent (s : TuiState) : Prop :=
  TuiState.fired s.runtime = true ∨ 0 < s.app.channels.cancel

/-- The run knows the token of its turn. -/
def TuiState.RunKnows (s : TuiState) : Prop :=
  ∀ run, s.task.stage = .prompting (some run) → run.cancelled = TuiState.fired s.runtime

section Presses
variable {client : Client} {first s : TuiState} {actions : List TaskAction}

theorem not_pressed_nil : ¬ Pressed client first [] := by
  rintro ⟨early, event, late, _, split, _⟩
  simp at split

/-- Only a Ctrl-C at the end adds to those before. -/
theorem pressed_concat (executed : (tuiMachine client).exec first actions = some s)
    (action : TaskAction) :
    Pressed client first (actions ++ [action]) ↔
      Pressed client first actions ∨ ∃ event, action = .ui event ∧ s.app.cancels event = true := by
  constructor
  · rintro ⟨early, event, late, middle, split, reached, pressed⟩
    rcases List.eq_nil_or_concat late with rfl | ⟨rest, last, rfl⟩
    · obtain ⟨rfl, same⟩ := List.append_inj' split rfl
      rw [executed, Option.some.injEq] at reached
      cases same
      exact .inr ⟨event, rfl, reached ▸ pressed⟩
    · have split : actions ++ [action] = (early ++ .ui event :: rest) ++ [last] := by
        simpa using split
      obtain ⟨rfl, _⟩ := List.append_inj' split rfl
      exact .inl ⟨early, event, rest, middle, rfl, reached, pressed⟩
  · rintro (⟨early, event, late, middle, rfl, reached, pressed⟩ | ⟨event, rfl, pressed⟩)
    · exact ⟨early, event, late ++ [action], middle, by simp, reached, pressed⟩
    · exact ⟨actions, event, [], s, rfl, executed, pressed⟩

end Presses

section Steps
variable {client : Client} {s t : TuiState} {action : TaskAction}

/-- A turn of the task is cancelled in a step of the runtime only by the cancel of its session. -/
theorem fired_step (task : TaskTurn client s) {action : Action} {runtime : AgentState}
    (called : agentStep client.uuid client.config s.runtime action = some runtime)
    (beside : ∀ sessionId, action ≠ .cancelSession sessionId) {turn : Turn}
    (running : s.runtime.turns 0 = some turn)
    (kept : ∃ after, runtime.turns 0 = some after) :
    TuiState.fired runtime = TuiState.fired s.runtime := by
  obtain ⟨after, found⟩ := kept
  have same : after.cancel = turn.cancel := by
    rcases agentStep_turn called found with ⟨before, present, continues⟩ | ⟨none, _⟩
    · rw [running, Option.some.injEq] at present
      rw [continues, ← present]
    · rw [running] at none
      cases none
  have still := task.settled.control.cancelled_iff called running
  rw [or_iff_left (beside _)] at still
  rw [TuiState.fired, TuiState.fired, found, running, Option.any_some, Option.any_some, same]
  exact Bool.eq_iff_iff.mpr still

/-- A key that cancels sends one cancel, and no other event of the interface does. -/
theorem cancel_ui {app next : App} {uuid : UuidCrate} {event : AppEvent}
    (alive : app.channels.receiverAlive = true)
    (sent : ∀ update, event ≠ .update update) (stepped : app.step uuid event = some next) :
    next.channels.cancel = app.channels.cancel + if app.cancels event then 1 else 0 := by
  by_cases plain : ∀ now outside gone key, event = .key now outside gone key →
    App.isCtrlC key = false
  · have quiet : app.cancels event = false := by
      cases event with
      | key now outside gone key =>
          rw [App.cancels, plain now outside gone key rfl]
          rfl
      | _ => rfl
    rw [(App.requests_step stepped sent plain).cancel, quiet]
    rfl
  · simp only [not_forall, Bool.not_eq_false] at plain
    obtain ⟨now, outside, gone, key, rfl, pressed⟩ := plain
    obtain ⟨_, _, channels⟩ := App.step_ctrlC pressed stepped
    rw [channels]
    cases app.cancels (.key now outside gone key) with
    | false => rfl
    | true =>
        rw [if_pos rfl, AgentChannels.sendCancel, if_pos alive]
        rfl

/-- While no command is taken up, a turn stays with the cancels that were sent for it. -/
theorem cancelSent_step (task : TaskTurn client s) (known : BusyKnown s)
    (stepped : s.step client action = some t)
    (other : action.receives = false) {after : Turn} (running : t.runtime.turns 0 = some after) :
    (∃ turn, s.runtime.turns 0 = some turn) ∧
      (t.CancelSent ↔ s.CancelSent ∨ ∃ event, action = .ui event ∧ s.app.cancels event = true) := by
  have next := task.step stepped
  have ended (stage : t.task.stage.turning = false) : False := by
    rw [next.idle stage] at running
    cases running
  have silent {next : TuiState} {action : TaskAction} (same : next.CancelSent ↔ s.CancelSent)
      (quiet : ∀ event, action ≠ .ui event) :
      next.CancelSent ↔ s.CancelSent ∨ ∃ event, action = .ui event ∧
          s.app.cancels event = true := by
    refine same.trans (or_iff_left ?_).symm
    rintro ⟨event, is, _⟩
    exact quiet event is
  cases step_moves stepped with
  | ui event sent moved =>
      refine ⟨⟨after, running⟩, ?_⟩
      have counted := cancel_ui known.alive sent moved
      simp only [TuiState.CancelSent, counted, TaskAction.ui.injEq, exists_eq_left']
      cases s.app.cancels event with
      | true => simp
      | false => simp
  | @deliver update updates waits =>
      refine ⟨⟨after, running⟩, silent ?_ (by rintro _ ⟨⟩)⟩
      obtain ⟨transcript, status, contextUsage, overlay, agentConfig, frame⟩ :=
        App.handleUpdate_frame s.app update
      rw [TuiState.CancelSent, frame]
      rfl
  | begin | take => cases other
  | @prepare taken action error runtime prepares prompting preparing called =>
      obtain ⟨turn, found, _⟩ := task.running (by rw [prompting]; rfl)
      refine ⟨⟨turn, found⟩, silent ?_ fun event is => by rw [is] at prepares; cases prepares⟩
      rw [TuiState.continueTurn] at running ended ⊢
      split
      · next goes =>
        have beside (sessionId : String) : action ≠ .cancelSession sessionId := by
          rintro rfl
          cases preparing
        rw [TuiState.CancelSent,
          fired_step task called beside found (Option.isSome_iff_exists.mp goes)]
        rfl
      · next fails =>
        rw [if_neg fails] at ended
        exact (ended rfl).elim
  | launch => exact ⟨⟨after, running⟩, silent Iff.rfl (by rintro _ ⟨⟩)⟩
  | agent => exact ⟨⟨after, running⟩, silent Iff.rfl (by rintro _ ⟨⟩)⟩
  | @cancel run cancel runtime prompting waits called =>
      have turning : s.task.stage.turning = true := by rw [prompting]; rfl
      obtain ⟨turn, found, own⟩ := task.running turning
      refine ⟨⟨turn, found⟩, silent (iff_of_true (.inl ?_) (.inr ?_)) (by rintro _ ⟨⟩)⟩
      · have fires := (task.settled.control.cancelled_iff called found).mpr (.inr (by rw [own]))
        have same := congrFun (agentStep_turns called (.inr ⟨_, rfl⟩)) 0
        show TuiState.fired runtime = true
        rw [TuiState.fired, same, found]
        exact fires
      · rw [waits]
        exact Nat.succ_pos cancel
  | @outside action runtime beside called =>
      have same := congrFun (agentStep_turns called (.inl beside)) 0
      obtain found := same.symm.trans running
      have apart (sessionId : String) : action ≠ .cancelSession sessionId := by
        rintro rfl
        cases beside
      refine ⟨⟨after, found⟩, silent ?_ (by rintro _ ⟨⟩)⟩
      rw [TuiState.CancelSent, fired_step task called apart found ⟨after, running⟩]
      rfl
  | _ => exact (ended rfl).elim

theorem fired_eq {runtime : AgentState} {turn : Turn} (running : runtime.turns 0 = some turn) :
    TuiState.fired runtime = runtime.cancelled turn.cancel := by
      rw [TuiState.fired, running, Option.any_some]

theorem step_cancelled {json : Openheim.SerdeJson} {run after : AgentRun} {action : AgentAction}
    (stepped : run.step json action = some after) (own : action ≠ .cancel) :
    after.cancelled = run.cancelled := by
  cases AgentRun.step_end stepped with
  | cancel fires => exact absurd fires own
  | begin _ _ _ goesOn => exact goesOn.cancelled
  | stay goesOn => exact goesOn.cancelled
  | fail goesOn => exact goesOn.cancelled
  | finish _ goesOn _ _ _ ends =>
      rw [ends]
      exact goesOn.cancelled

/-- The token of the turn is the one that its run looks at. -/
theorem runKnows_step (task : TaskTurn client s) (knows : s.RunKnows)
    (stepped : s.step client action = some t) :
    t.RunKnows := by
  cases step_moves stepped with
  | ui | deliver => exact knows
  | begin error waiting queued called =>
      rw [TuiState.continueTurn]
      split <;> exact fun run stage => by cases stage
  | @prepare taken action error runtime prepares prompting preparing called =>
      rw [TuiState.continueTurn]
      split
      · intro run stage
        rw [prompting] at stage
        cases stage
      · exact fun run stage => by cases stage
  | launch builder toolsBytes messages prompting found =>
      rintro _ ⟨rfl⟩
      exact (fired_eq found).symm
  | agent action prompting own moved =>
      rintro _ ⟨rfl⟩
      rw [step_cancelled moved own]
      exact knows _ prompting
  | @cancel run cancel runtime prompting waits called =>
      intro after stage
      cases run with
      | none => cases stage
      | some run =>
          cases stage
          show (run.cancelled || TuiState.fired runtime) = TuiState.fired runtime
          obtain ⟨turn, found, own⟩ := task.running (by rw [prompting]; rfl)
          have same := congrFun (agentStep_turns called (.inr ⟨_, rfl⟩)) 0
          have fires := (task.settled.control.cancelled_iff called found).mpr (.inr (by rw [own]))
          rw [fired_eq (same.trans found), fires, Bool.or_true]
  | @outside action runtime beside called =>
      intro run stage
      obtain ⟨turn, found, own⟩ := task.running (by rw [show s.task.stage = _ from stage]; rfl)
      have same := congrFun (agentStep_turns called (.inl beside)) 0
      have apart (sessionId : String) : action ≠ .cancelSession sessionId := by
        rintro rfl
        cases beside
      exact (knows run stage).trans (fired_step task called apart found ⟨turn,
        same.trans found⟩).symm
  | _ => exact fun run stage => by cases stage

/-- A turn begins with a token that nobody fired, and the cancels from before it are gone. -/
theorem cancelSent_begin {error : String} (task : TaskTurn client s)
    (begins : s.step client (.receive error) = some t) {turn : Turn}
    (running : t.runtime.turns 0 = some turn) :
    ¬ t.CancelSent := by
  have next := task.step begins
  generalize same : TaskAction.receive error = action at begins
  cases step_moves begins with
  | @begin error text commands runtime waiting queued called =>
      rw [TuiState.continueTurn] at running ⊢
      split
      · next goes =>
        rw [if_pos goes] at running
        have fresh :=
          task.settled.control.cancelled_start called (task.idle (by rw [waiting]; rfl)) running
        rintro (fired | waits)
        · have fires : TuiState.fired runtime = true := fired
          rw [fired_eq running, fresh] at fires
          cases fires
        · exact absurd waits (Nat.lt_irrefl 0)
      · next fails =>
        rw [if_neg fails] at running
        exact absurd (Option.isSome_of_eq_some running) fails
  | take =>
      rw [next.idle rfl] at running
      cases running
  | prepare _ action error prepares prompting preparing called =>
      rw [← same] at prepares
      cases prepares
  | _ => cases same

theorem runKnows_of_reachable (reached : (tuiMachine client).Reachable s) : s.RunKnows := by
  have initial (s : TuiState) (started : (tuiMachine client).start s) :
      TaskTurn client s ∧ s.RunKnows := by
    refine ⟨(TaskTurn.initial started).1, ?_⟩
    obtain ⟨_, _, _, _, _, _, _, _, _, _, task⟩ := started
    intro run stage
    rw [task] at stage
    cases stage
  have both : TaskTurn client s ∧ s.RunKnows := by
    refine reached.invariant initial fun s action t known _ stepped => ?_
    exact ⟨known.1.step stepped, runKnows_step known.1 known.2 stepped⟩
  exact both.2

end Steps

/-- From the moment that the task takes up a prompt, its turn is cancelled, or a cancel waits for
it, exactly when the user has pressed a Ctrl-C that cancels since then. No earlier one reaches it
and none for it is lost; and the run of the turn looks at that token. -/
theorem cancel_reaches_its_turn {client : Client} {first begun s : TuiState} {error : String}
    {between : List TaskAction} {turn : Turn} (reached : (tuiMachine client).Reachable first)
    (begins : (tuiMachine client).step first (.receive error) = some begun)
    (executed : (tuiMachine client).exec begun between = some s)
    (alone : ∀ action ∈ between, action.receives = false)
    (running : s.runtime.turns 0 = some turn) :
    (s.runtime.cancelled turn.cancel = true ∨ 0 < s.app.channels.cancel ↔
        Pressed client begun between) ∧
      ∀ run, s.task.stage = .prompting (some run) →
        run.cancelled = s.runtime.cancelled turn.cancel := by
  have started := reached.step begins
  rw [← fired_eq running]
  refine ⟨?_, runKnows_of_reachable (started.exec executed)⟩
  show s.CancelSent ↔ Pressed client begun between
  induction between using List.reverseRecOn generalizing s turn with
  | nil =>
      cases executed
      exact iff_of_false (cancelSent_begin (.of_reachable reached) begins running) not_pressed_nil
  | append_singleton between action ih =>
      obtain ⟨before, executes, stepped⟩ := Machine.exec_concat executed
      have known := started.exec executes
      obtain ⟨⟨earlier, ran⟩, counted⟩ :=
        cancelSent_step (.of_reachable known) (.of_reachable known) stepped
        (alone action (by simp)) running
      rw [counted, pressed_concat executes,
        ih executes (fun other member => alone other (List.mem_append_left _ member)) ran]

/-- The user sends a prompt, presses Ctrl-C once its turn is prepared,
and the task takes the cancel. -/
def cancelling : List TaskAction :=
  [.acquireLease true "", .ui (.key 0 plainOutside [] ⟨.char 'c', true⟩), .prepare true true "",
    .launch ⟨none, []⟩ 0 [], .takeCancel]

theorem cancel_reaches_its_turn_sample : ∃ begun s turn,
    (tuiMachine sampleClient).step greeted (.receive "") = some begun ∧
      (tuiMachine sampleClient).exec begun cancelling = some s ∧ s.runtime.turns 0 = some turn ∧
      s.app.channels.cancel = 0 ∧
      (s.runtime.cancelled turn.cancel = true ∨ 0 < s.app.channels.cancel ↔
          Pressed sampleClient begun cancelling) ∧
      ∀ run, s.task.stage = .prompting (some run) →
        run.cancelled = s.runtime.cancelled turn.cancel := by
  obtain ⟨begun, begins⟩ : ∃ begun, (tuiMachine sampleClient).step greeted (.receive "") =
    some begun := ⟨_, rfl⟩
  obtain ⟨s, turn, executed, running, none⟩ : ∃ s turn,
      (tuiMachine sampleClient).exec begun cancelling = some s ∧
      s.runtime.turns 0 = some turn ∧ s.app.channels.cancel = 0 := by
    cases begins
    exact ⟨_, _, rfl, rfl, rfl⟩
  have reached := Machine.reachable_of_exec greeted_exec.1 greeted_exec.2
  exact ⟨begun, s, turn, begins, executed, running, none,
    cancel_reaches_its_turn reached begins executed
      (by simp [cancelling, TaskAction.receives]) running⟩

end Openheim.Tui
