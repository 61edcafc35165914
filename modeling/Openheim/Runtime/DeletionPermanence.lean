import Openheim.Memory.LeaseTakeover
import Openheim.Runtime.Deletion
import Openheim.Runtime.LogFollowsTurn

namespace Openheim.Runtime
open Openheim.Memory

section Quiet
variable {settings : DeletionSettings} {s t : DeletionState}

/-- No turn is in flight when the call for its lease is past. -/
theorem DeletionState.inFlight_eq_false : s.inFlight settings = false ↔
    (s.lease.calls settings.caller).isPast := by
  rw [inFlight, Bool.not_eq_false']

/-- A step of the lease leaves the files of the conversation alone. It may end the turn, and a crash
may end the deletion. -/
theorem DeletionState.moveLease_cases {action : LeaseAction}
    (stepped : s.moveLease settings action = some t) :
    leaseStep settings.id settings.host s.lease action = some t.lease ∧
      t.turn.files = s.turn.files ∧
      (t.turn.stage = s.turn.stage ∨ t.turn.stage = .idle) ∧
        (t.deletion = s.deletion ∨ t.deletion = .idle) := by
  unfold moveLease at stepped
  split at stepped
  · split at stepped
    · split at stepped
      · obtain ⟨lease, moved, rfl⟩ := Option.map_eq_some_iff.mp stepped
        exact ⟨moved, rfl, .inr rfl, .inl rfl⟩
      · cases stepped
    · obtain ⟨lease, moved, rfl⟩ := Option.map_eq_some_iff.mp stepped
      exact ⟨moved, rfl, .inl rfl, .inl rfl⟩
  · obtain ⟨lease, moved, rfl⟩ := Option.map_eq_some_iff.mp stepped
    split
    · exact ⟨moved, rfl, .inr rfl, .inr rfl⟩
    · exact ⟨moved, rfl, .inl rfl, .inl rfl⟩
  · obtain ⟨lease, moved, rfl⟩ := Option.map_eq_some_iff.mp stepped
    exact ⟨moved, rfl, .inl rfl, .inl rfl⟩

/-- Without a turn in flight none comes to be until one acquires the lease. -/
theorem DeletionState.moveLease_quiet {action : LeaseAction} (quiet : s.inFlight settings = false)
    (other : action ≠ .acquire settings.caller) (stepped : s.moveLease settings action = some t) :
    t.inFlight settings = false := by
  rw [inFlight_eq_false] at quiet ⊢
  exact leaseStep_isPast quiet other (moveLease_cases stepped).1

/-- Without a turn in flight no step is that of a turn. -/
theorem DeletionState.moveTurn_inFlight {action : PromptAction}
    (stepped : s.moveTurn settings action = some t) :
    s.inFlight settings = true := by
  unfold moveTurn at stepped
  split at stepped
  · next holds =>
    rw [inFlight, holds]
    rfl
  · cases stepped

/-- A step of the deletion makes no call of `acquire` and no meta file, and
the turn stays where it is. -/
theorem deletion_steps {action : DeletionAction} (own : ∀ action', action ≠ .lease action')
    (aside : ∀ action', action ≠ .turn action') (stepped : s.step settings action = some t) :
    t.lease.calls = s.lease.calls ∧ t.turn.stage = s.turn.stage ∧
      (s.turn.files.metaFile = none → t.turn.files.metaFile = none) := by
  cases action with
  | lease action => exact absurd rfl (own action)
  | turn action => exact absurd rfl (aside action)
  | callDelete =>
      simp only [DeletionState.step, DeletionState.callDelete] at stepped
      split at stepped
      · split at stepped
        · cases stepped
          exact ⟨rfl, rfl, id⟩
        · cases stepped
          exact ⟨rfl, rfl, id⟩
      · cases stepped
  | removeMeta removed =>
      simp only [DeletionState.step, DeletionState.removeMeta] at stepped
      split at stepped
      · split at stepped
        · cases stepped
          exact ⟨rfl, rfl, fun _ => rfl⟩
        · cases stepped
          exact ⟨rfl, rfl, id⟩
      · cases stepped
  | removeLog removed =>
      simp only [DeletionState.step, DeletionState.removeLog] at stepped
      split at stepped
      · cases stepped
        refine ⟨rfl, rfl, fun absent => ?_⟩
        cases removed
        · exact absent
        · exact absent
      · cases stepped
  | removeLock removed =>
      simp only [DeletionState.step, DeletionState.removeLock] at stepped
      split at stepped
      · cases stepped
        refine ⟨?_, rfl, id⟩
        cases removed
        · rfl
        · rfl
      · cases stepped

/-- No turn is in flight, and the meta file is gone. -/
def DeletionState.Gone (settings : DeletionSettings) (s : DeletionState) : Prop :=
  s.inFlight settings = false ∧ s.turn.files.metaFile = none

/-- What is gone stays so while no other turn begins and nothing else is deleted. -/
theorem DeletionState.Gone.step {action : DeletionAction} (gone : s.Gone settings)
    (permitted : sameTurn settings s action) (stepped : s.step settings action = some t) :
    t.Gone settings := by
  obtain ⟨quiet, absent⟩ := gone
  cases action with
  | lease action =>
      have other : action ≠ .acquire settings.caller := by
        rintro rfl
        exact permitted rfl
      refine ⟨moveLease_quiet quiet other stepped, ?_⟩
      rw [(moveLease_cases stepped).2.1]
      exact absent
  | turn action => exact absurd (moveTurn_inFlight stepped) (by simp [quiet])
  | callDelete => exact permitted.elim
  | removeMeta removed =>
      obtain ⟨calls, _, kept⟩ := deletion_steps (by simp) (by simp) stepped
      exact ⟨by rwa [inFlight, calls], kept absent⟩
  | removeLog removed =>
      obtain ⟨calls, _, kept⟩ := deletion_steps (by simp) (by simp) stepped
      exact ⟨by rwa [inFlight, calls], kept absent⟩
  | removeLock removed =>
      obtain ⟨calls, _, kept⟩ := deletion_steps (by simp) (by simp) stepped
      exact ⟨by rwa [inFlight, calls], kept absent⟩

/-- What is gone stays gone until a turn begins. -/
theorem DeletionState.Gone.permanent (gone : s.Gone settings) : s.Permanent settings := by
  intro t run
  obtain ⟨quiet, absent⟩ : t.Gone settings := by
    apply run.preserves gone
    intro first action last before permitted stepped
    exact before.step permitted stepped
  refine ⟨?_, ?_, fun holds => ?_⟩
  · rw [listed, absent]
    rfl
  · rw [loadable, loadConversation, absent]
    rfl
  · rw [inFlight, holds] at quiet
    cases quiet

/-- Nothing disturbs a deletion in progress: no turn is in flight, and a meta
file that it removed is gone. -/
structure DeletionState.Undisturbed (settings : DeletionSettings) (s : DeletionState) : Prop where
  quiet : s.deletion.inProgress → s.inFlight settings = false
  removed : s.deletion = .metaRemoved ∨ s.deletion = .logRemoved → s.turn.files.metaFile = none

/-- A deletion that is not in progress asks for nothing. -/
theorem DeletionState.Undisturbed.ofOver (stopped : s.deletion.inProgress = false) :
    s.Undisturbed settings where
  quiet going := by simp [stopped] at going
  removed going := by
    rcases going with going | going <;> simp [going, DeleteStage.inProgress] at stopped

/-- A permitted step of the lease leaves the deletion undisturbed. -/
theorem DeletionState.Undisturbed.lease {action : LeaseAction} (before : s.Undisturbed settings)
    (permitted : undisturbed settings s (.lease action))
    (stepped : s.moveLease settings action = some t) :
    t.Undisturbed settings := by
  obtain ⟨_, files, _, same | ended⟩ := moveLease_cases stepped
  · by_cases going : s.deletion.inProgress
    · have other : action ≠ .acquire settings.caller := by
        rintro rfl
        have stopped : s.deletion.inProgress = false := permitted rfl
        simp [going] at stopped
      refine ⟨fun _ => moveLease_quiet (before.quiet going) other stepped, fun stage => ?_⟩
      rw [files]
      exact before.removed (by rwa [same] at stage)
    · exact .ofOver (by rw [same]; simpa using going)
  · exact .ofOver (by rw [ended]; rfl)

/-- A step of the turn leaves the deletion undisturbed. -/
theorem DeletionState.Undisturbed.turn {action : PromptAction} (before : s.Undisturbed settings)
    (stepped : s.moveTurn settings action = some t) : t.Undisturbed settings := by
  have flying := moveTurn_inFlight stepped
  have stopped : s.deletion.inProgress = false := by
    by_contra going
    have quiet := before.quiet (by simpa using going)
    simp [flying] at quiet
  unfold moveTurn at stepped
  split at stepped
  · obtain ⟨turn, _, rfl⟩ := Option.map_eq_some_iff.mp stepped
    exact .ofOver stopped
  · cases stepped

/-- Every step that does not disturb the deletion leaves it undisturbed. -/
theorem DeletionState.Undisturbed.step {action : DeletionAction} (before : s.Undisturbed settings)
    (permitted : undisturbed settings s action) (stepped : s.step settings action = some t) :
    t.Undisturbed settings := by
  cases action with
  | lease action => exact before.lease permitted stepped
  | turn action => exact before.turn stepped
  | callDelete =>
      simp only [DeletionState.step, callDelete] at stepped
      split at stepped
      · split at stepped
        · cases stepped
          exact ⟨fun _ => permitted, by simp⟩
        · cases stepped
          exact .ofOver rfl
      · cases stepped
  | removeMeta removed =>
      simp only [DeletionState.step, removeMeta] at stepped
      split at stepped
      · split at stepped
        · cases stepped
          exact ⟨fun _ => permitted, fun _ => rfl⟩
        · cases stepped
          exact .ofOver rfl
      · cases stepped
  | removeLog removed =>
      simp only [DeletionState.step, removeLog] at stepped
      split at stepped
      · next stage =>
        cases stepped
        refine ⟨fun _ => permitted, fun _ => ?_⟩
        have absent := before.removed (.inl stage)
        cases removed
        · exact absent
        · exact absent
      · cases stepped
  | removeLock removed =>
      simp only [DeletionState.step, removeLock] at stepped
      split at stepped
      · cases stepped
        exact .ofOver rfl
      · cases stepped

/-- A deletion that returns undisturbed is permanent. -/
theorem DeletionState.Undisturbed.permanent {removed : Bool} (before : s.Undisturbed settings)
    (stepped : s.removeLock removed = some t) : t.Permanent settings := by
  unfold removeLock at stepped
  split at stepped
  · next stage =>
    cases stepped
    apply Gone.permanent
    have quiet := before.quiet (by rw [stage]; rfl)
    refine ⟨?_, before.removed (.inr stage)⟩
    cases removed
    · exact quiet
    · exact quiet
  · cases stepped

end Quiet

section Loop
variable {run : AgentRun}

theorem record_cancelled (calls : List (ToolUseBlock × Option (String × Bool))) :
    (run.record calls).cancelled = run.cancelled := by
  induction calls generalizing run with
  | nil => rfl
  | cons entry calls ih =>
      obtain ⟨call, outcome⟩ := entry
      cases outcome with
      | none => exact ih
      | some outcome => exact ih

theorem leaveCalls_cancelled (iteration : Nat) (choice : Reply)
    (outcomes : List (Option (String × Bool))) :
    (run.leaveCalls iteration choice outcomes).cancelled = run.cancelled := record_cancelled _

/-- A cancelled loop has returned, returns next, or has just recorded its calls and returns then. -/
theorem cancelled_loop (json : Openheim.SerdeJson) (cancelled : run.cancelled) :
    (∃ result, run.phase = .returned result) ∨
      ∃ action after, run.step json action = some after ∧ after.cancelled ∧
        ((∃ result, after.phase = .returned result) ∨ ∃ iteration,
            after.phase = .recorded iteration ∧
          ∀ iteration, run.phase ≠ .recorded iteration) := by
  cases phase : run.phase with
  | returned result => exact .inl ⟨result, rfl⟩
  | iterating iteration =>
      right
      by_cases last : run.config.maxIterations ≤ iteration
      · exact ⟨.proceed, run.finish .maxIterations,
          by simp [AgentRun.step, AgentRun.proceed, phase, last], cancelled,
          .inl ⟨_, rfl⟩⟩
      · exact ⟨.proceed, run.finish .cancelled,
          by simp [AgentRun.step, AgentRun.proceed, phase, last,
            cancelled], cancelled, .inl ⟨_, rfl⟩⟩
  | sending iteration overflowRetries request =>
      exact .inr ⟨.observeCancel, run.finish .cancelled,
        by simp [AgentRun.step, AgentRun.observeCancel, phase, cancelled], cancelled, .inl ⟨_, rfl⟩⟩
  | announced iteration choice =>
      refine .inr ⟨.proceed,
        run.leaveCalls iteration choice (choice.message.toolCalls.map fun _ => none),
        by simp [AgentRun.step, AgentRun.proceed, phase, cancelled], ?_, .inr ⟨iteration,
          rfl, by simp⟩⟩
      rw [leaveCalls_cancelled]
      exact cancelled
  | deciding iteration choice decisions =>
      refine .inr ⟨.observeCancel, run.leaveCalls iteration choice (decisions.map fun _ => none),
        by simp [AgentRun.step, AgentRun.observeCancel, phase, cancelled], ?_, .inr ⟨iteration,
          rfl, by simp⟩⟩
      rw [leaveCalls_cancelled]
      exact cancelled
  | executing iteration choice decisions progress =>
      refine .inr ⟨.observeCancel, run.leaveCalls iteration choice (progress.map Progress.outcome),
        by simp [AgentRun.step, AgentRun.observeCancel, phase, cancelled], ?_, .inr ⟨iteration,
          rfl, by simp⟩⟩
      rw [leaveCalls_cancelled]
      exact cancelled
  | recorded iteration =>
      exact .inr ⟨.proceed, run.finish .cancelled,
        by simp [AgentRun.step, AgentRun.proceed, phase, cancelled], cancelled, .inl ⟨_, rfl⟩⟩

end Loop

section Unfinished
variable {settings : PromptSettings} {s : PromptTurn}

/-- All writes succeeded so far, or the log is missing, so that it cannot diverge. -/
def PromptTurn.CanSave (s : PromptTurn) : Prop := s.writeFailed = false ∨ s.files.log = none

/-- The final save of the turn is still to come, and nothing that was
written keeps it from succeeding. -/
def PromptTurn.Unfinished (s : PromptTurn) : Prop :=
  match s.stage with
  | .idle => s.files.log = none
  | .prepared _ _ _ | .recording _ _ _ => True
  | .running _ _ _ _ => s.CanSave
  | .saved _ _ _ _ | .failed _ => False

/-- The turn can go on until the conversation is listed. -/
def PromptTurn.CanList (settings : PromptSettings) (s : PromptTurn) : Prop :=
  ∃ t, (promptMachine settings).Runs Machine.free s t ∧ t.files.metaFile.isSome

/-- A turn that can be listed after a step could be so before it. -/
theorem PromptTurn.CanList.head {t : PromptTurn} {action : PromptAction}
    (later : t.CanList settings)
    (stepped : s.step settings action = some t) : s.CanList settings := by
  obtain ⟨last, run, listed⟩ := later
  exact ⟨last, run.head ⟨action, trivial, stepped⟩, listed⟩

/-- Saving a conversation without a log writes its meta file. -/
theorem saveConversationWith_missing (serde : Memory.SerdeJson) (now : Instant)
    {files : ConversationFiles} (conv : Conversation) (missing : files.log = none) :
    (saveConversationWith serde now ⟨true, true, true⟩ files conv).1.metaFile.isSome ∧
      (saveConversationWith serde now ⟨true, true, true⟩ files conv).2 = .ok () := by
  have read : readMessageLog serde files = .ok [] := by rw [readMessageLog, missing]
  have fine : diverged [] conv.messages = false := (diverged_eq_false _ _).mpr List.nil_prefix
  unfold saveConversationWith
  rw [read]
  simp [fine, saveMetaWith, saveMeta]

/-- The save at the end of the loop lists the conversation. -/
theorem canList_returned {input : PromptInput} {meta_ : ConversationMeta} {run : AgentRun}
    {result : Except Error AgentResult}
    (stage : s.stage = .running input meta_ run run.events.length)
    (returned : run.phase = .returned result) (able : s.CanSave) : s.CanList settings := by
  have saved : ∃ t, s.step settings (.save 0 ⟨true, true, true⟩) = some t ∧
      t.files.metaFile.isSome := by
    simp only [PromptTurn.step, PromptTurn.save, stage, returned, ↓reduceIte]
    cases failed : s.writeFailed with
    | false => exact ⟨_, rfl, rfl⟩
    | true =>
        have missing : s.files.log = none := able.resolve_left (by simp [failed])
        exact ⟨_, rfl, (saveConversationWith_missing _ 0 _ missing).1⟩
  obtain ⟨t, stepped, listed⟩ := saved
  exact PromptTurn.CanList.head ⟨t, .refl, listed⟩ stepped

/-- The next event can be handled without a new failure. -/
theorem canSave_handle {input : PromptInput} {meta_ : ConversationMeta} {run : AgentRun}
    {handled : Nat}
    (stage : s.stage = .running input meta_ run handled) (more : handled < run.events.length)
    (able : s.CanSave) :
    ∃ t : PromptTurn, s.step settings (.handle 0 .whole true) = some t ∧
      t.stage = .running input meta_ run (handled + 1) ∧ t.CanSave := by
  simp only [PromptTurn.step, PromptTurn.handle, stage, List.getElem?_eq_getElem more,
    Option.map_some]
  split
  · exact ⟨_, rfl, rfl, .inl rfl⟩
  · exact ⟨_, rfl, rfl, able⟩

/-- Wherever a turn with this run stands, it can go on until the conversation is listed. -/
def Ends (settings : PromptSettings) (run : AgentRun) : Prop :=
  ∀ (input : PromptInput) (meta_ : ConversationMeta) (s : PromptTurn) (handled : Nat),
    s.stage = .running input meta_ run handled → handled ≤ run.events.length → s.CanSave →
      s.CanList settings

/-- The events that are left are handled first. -/
theorem Ends.of_drained {run : AgentRun}
    (drained : ∀ (input : PromptInput) (meta_ : ConversationMeta) (s : PromptTurn),
      s.stage = .running input meta_ run run.events.length → s.CanSave → s.CanList settings) :
    Ends settings run := by
  intro input meta_ s handled stage some able
  obtain ⟨left, all⟩ := Nat.exists_eq_add_of_le some
  induction left generalizing s handled with
  | zero =>
      obtain rfl : handled = run.events.length := by omega
      exact drained input meta_ s stage able
  | succ left ih =>
      obtain ⟨t, stepped, next, later⟩ := canSave_handle stage (by omega) able
      exact (ih t (handled + 1) next (by omega) later (by omega)).head stepped

/-- A loop can go on to its end if it can after one step. -/
theorem Ends.of_step {run after : AgentRun} {action : AgentAction} (onward : Ends settings after)
    (taken : run.step settings.json action = some after) : Ends settings run := by
  apply Ends.of_drained
  intro input meta_ s stage able
  obtain ⟨t, stepped, next, later⟩ : ∃ t : PromptTurn, s.step settings (.agent action) = some t ∧
      t.stage = .running input meta_ after run.events.length ∧ t.CanSave := by
    simp only [PromptTurn.step, PromptTurn.stepAgent, stage, ↓reduceIte, taken, Option.map_some]
    exact ⟨_, rfl, rfl, able⟩
  have more := (AgentRun.step_events taken).length_le
  exact (onward input meta_ t run.events.length next more later).head stepped

/-- Every loop can be cancelled, returns then, and is followed by the save. -/
theorem ends_all (run : AgentRun) : Ends settings run := by
  have finished : ∀ {run : AgentRun}, (∃ result, run.phase = .returned result) →
      Ends settings run := by
    rintro run ⟨result, returned⟩
    apply Ends.of_drained
    intro input meta_ s stage able
    exact canList_returned stage returned able
  have stopped : ∀ {run : AgentRun}, run.cancelled → Ends settings run := by
    intro run cancelled
    rcases cancelled_loop settings.json cancelled with
      returned | ⟨action, after, taken, later, returned | recorded⟩
    · exact finished returned
    · exact (finished returned).of_step taken
    · obtain ⟨iteration, phase, _⟩ := recorded
      rcases cancelled_loop settings.json later with returned | ⟨_, last, next, _, returned | again⟩
      · exact (finished returned).of_step taken
      · exact ((finished returned).of_step next).of_step taken
      · obtain ⟨_, _, apart⟩ := again
        exact absurd phase (apart iteration)
  have taken : run.step settings.json .cancel = some { run with cancelled := true } := rfl
  exact (stopped rfl).of_step taken

/-- The loop has produced the events that are handled. -/
def PromptStage.InStep : PromptStage → Prop
  | .running _ _ run handled => handled ≤ run.events.length
  | _ => True

/-- Every step of a turn handles no event before it is there. -/
theorem StageMoves.inStep {json : Openheim.SerdeJson} {old new : PromptStage}
    (moved : StageMoves json old new) (before : old.InStep) : new.InStep := by
  cases moved with
  | prepare | fail | record | save => trivial
  | launchUnrecorded | launch => exact Nat.zero_le _
  | loop input meta_ run after handled action taken =>
    exact before.trans (AgentRun.step_events taken).length_le
  | handle input meta_ run handled more => exact more
  | stay => exact before

/-- A turn that is not finished can list the conversation again. -/
theorem PromptTurn.Unfinished.canList (inStep : s.stage.InStep) (unfinished : s.Unfinished) :
    s.CanList settings := by
  unfold Unfinished at unfinished
  split at unfinished
  · next idle =>
    by_cases present : s.files.metaFile.isSome
    · exact ⟨s, .refl, present⟩
    · have input : PromptInput :=
        ⟨[], ⟨"", .openAiCompatible, "", "", "", 0, 0, none, none, false, false⟩, [], "", 0⟩
      have created : ∃ t,
          s.step settings (.prepare 0 ⟨true, true, true⟩ input (.ok ⟨none, []⟩)) = some t ∧
          t.files.metaFile.isSome := by
        obtain ⟨listed, saved⟩ := saveConversationWith_missing settings.serde 0
          ⟨.new 0 settings.id (some input.config.model) (some input.config.providerName)
            input.skills, []⟩ unfinished
        simp only [PromptTurn.step, PromptTurn.prepare, idle, resolveConversationWith,
          present, saved]
        exact ⟨_, rfl, listed⟩
      obtain ⟨t, stepped, listed⟩ := created
      exact PromptTurn.CanList.head ⟨t, .refl, listed⟩ stepped
  · next prepared =>
    have stepped : ∃ t, s.step settings (.recordMeta 0 true) = some t ∧
        t.files.metaFile.isSome := by
      simp only [PromptTurn.step, PromptTurn.recordMeta, prepared]
      exact ⟨_, rfl, rfl⟩
    obtain ⟨t, stepped, listed⟩ := stepped
    exact PromptTurn.CanList.head ⟨t, .refl, listed⟩ stepped
  · next recording =>
    have stepped : ∃ t : PromptTurn, s.step settings (.recordUser 0 .whole true) = some t ∧
        t.writeFailed = false ∧ ∃ input meta_ run, t.stage = .running input meta_ run 0 := by
      simp only [PromptTurn.step, PromptTurn.recordUser, recording]
      exact ⟨_, rfl, rfl, _, _, _, rfl⟩
    obtain ⟨t, stepped, fine, input, meta_, run, running⟩ := stepped
    exact (ends_all run input meta_ t 0 running (Nat.zero_le _) (.inl fine)).head stepped
  · next input meta_ run handled running =>
    rw [running] at inStep
    exact ends_all run input meta_ s handled running inStep unfinished
  · exact unfinished.elim
  · exact unfinished.elim

end Unfinished

section Returned
variable {settings : DeletionSettings} {s t : DeletionState}

/-- A turn that holds the lease runs beside all else. -/
theorem turn_runs {turn : PromptTurn} (holds : s.lease.calls settings.caller = .holding)
    (run : (promptMachine settings.toPromptSettings).Runs Machine.free s.turn turn) :
    (deletionMachine settings).Runs (sameTurn settings) s { s with turn } := by
  induction run with
  | refl => exact .refl
  | tail _ last ih =>
      obtain ⟨action, _, stepped⟩ := last
      refine ih.tail ⟨.turn action, trivial, ?_⟩
      show (if s.lease.calls settings.caller = .holding then _ else _) = _
      rw [if_pos holds]
      exact congrArg (Option.map _) stepped

/-- No step loses an event of the turn. -/
theorem deletion_inStep {action : DeletionAction} (before : s.turn.stage.InStep)
    (stepped : s.step settings action = some t) : t.turn.stage.InStep := by
  cases action with
  | lease action =>
      obtain ⟨_, _, same | stopped, _⟩ := DeletionState.moveLease_cases stepped
      · rw [same]
        exact before
      · rw [stopped]
        trivial
  | turn action =>
      simp only [DeletionState.step, DeletionState.moveTurn] at stepped
      split at stepped
      · obtain ⟨turn, moved, rfl⟩ := Option.map_eq_some_iff.mp stepped
        exact (PromptTurn.step_stage moved).inStep before
      · cases stepped
  | callDelete | removeMeta removed | removeLog removed | removeLock removed =>
      rw [(deletion_steps (by simp) (by simp) stepped).2.1]
      exact before

/-- The lease moves beside a turn that neither begins nor ends. -/
theorem lease_runs {lease : LeaseState}
    (run : (leaseMachine settings.id settings.host).Runs (Spares settings.caller) s.lease lease) :
    (deletionMachine settings).Runs (sameTurn settings) s { s with lease } := by
  induction run with
  | refl => exact .refl
  | tail _ last ih =>
      obtain ⟨action, spares, stepped⟩ := last
      refine ih.tail ⟨.lease action, ?_, ?_⟩
      · cases action with
        | acquire caller => exact spares
        | _ => trivial
      · simp only [leaseMachine] at stepped
        simp only [deletionMachine, DeletionState.step]
        unfold DeletionState.moveLease
        rw [stepped]
        cases action with
        | drop caller => exact if_neg spares
        | crash pid => exact congrArg some (if_neg spares)
        | _ => rfl

/-- No step makes a call test its own process. -/
theorem deletion_testsOthers {action : DeletionAction} (before : s.lease.TestsOthers settings.host)
    (stepped : s.step settings action = some t) : t.lease.TestsOthers settings.host := by
  cases action with
  | lease action => exact before.step (DeletionState.moveLease_cases stepped).1
  | turn action =>
      simp only [DeletionState.step, DeletionState.moveTurn] at stepped
      split at stepped
      · obtain ⟨turn, _, rfl⟩ := Option.map_eq_some_iff.mp stepped
        exact before
      · cases stepped
  | callDelete | removeMeta removed | removeLog removed | removeLock removed =>
      exact before.of_calls (deletion_steps (by simp) (by simp) stepped).1

/-- The removal of the lockfile leaves the turn and the files as they were. -/
theorem removeLock_frame (settings : DeletionSettings) {removed : Bool}
    (returned : s.removeLock removed = some t) :
    t.turn = s.turn ∧ t.inFlight settings = s.inFlight settings := by
  unfold DeletionState.removeLock at returned
  split at returned
  · cases returned
    cases removed
    · exact ⟨rfl, rfl⟩
    · exact ⟨rfl, rfl⟩
  · cases returned

/-- A deletion from whose call to whose return no turn is in flight is permanent. -/
theorem undisturbed_permanent {removed : Bool}
    (reached : (deletionMachine settings).ReachableUnder (undisturbed settings) s)
    (returned : (deletionMachine settings).step s (.removeLock removed) = some t) :
    t.Permanent settings := by
  have before : s.Undisturbed settings := by
    apply reached.invariant
    · rintro first ⟨_, _, _, _, idle⟩
      exact .ofOver (by rw [idle]; rfl)
    · intro first action last before permitted stepped
      exact before.step permitted stepped
  exact before.permanent returned

/-- Without the lockfile, another process can come to hold the lease
together with a turn in flight. -/
theorem DeletionState.not_permanent_of_inFlight (others : s.lease.TestsOthers settings.host)
    (absent : s.lease.lockfile = none) (flying : s.inFlight settings) : ¬ s.Permanent settings := by
  intro permanent
  have inside : (s.lease.calls settings.caller).isPast = false := by simpa [inFlight] using flying
  obtain ⟨lease, pid, apart, run, holds, rival⟩ := two_holders settings.id others absent inside
  exact (permanent _ (lease_runs run)).2.2 holds pid apart rival

/-- A turn whose final save is still to come can list the conversation again. -/
theorem DeletionState.not_permanent_of_unfinished (inStep : s.turn.stage.InStep)
    (holds : s.lease.calls settings.caller = .holding) (unfinished : s.turn.Unfinished) :
    ¬ s.Permanent settings := by
  intro permanent
  have relisted : s.turn.CanList settings.toPromptSettings := unfinished.canList inStep
  obtain ⟨turn, run, present⟩ := relisted
  have hidden := (permanent _ (turn_runs holds run)).1
  rw [listed, present] at hidden
  cases hidden

/-- In every run the calls test only other processes. -/
theorem reachable_testsOthers (reached : (deletionMachine settings).Reachable s) :
    s.lease.TestsOthers settings.host := by
  apply reached.invariant
  · rintro first ⟨_, idle, _⟩ caller existing version tests
    rw [idle] at tests
    cases tests
  · intro first action last before _ stepped
    exact deletion_testsOthers before stepped

/-- In every run the events that are handled are there. -/
theorem reachable_inStep (reached : (deletionMachine settings).Reachable s) :
    s.turn.stage.InStep := by
  apply reached.invariant
  · rintro first ⟨_, _, idle, _⟩
    rw [idle]
    trivial
  · intro first action last before _ stepped
    exact deletion_inStep before stepped

/-- A deletion is permanent if no turn is in flight when it returns and the meta file is still gone.
Otherwise it is not, once the lockfile is gone, and whatever becomes of the lockfile if the final
save of the turn is to come. -/
theorem deletion_permanent {removed : Bool} (reached : (deletionMachine settings).Reachable s)
    (returned : (deletionMachine settings).step s (.removeLock removed) = some t) :
    (s.inFlight settings = false ∧ s.listed = false → t.Permanent settings) ∧
      (t.lease.lockfile = none → t.Permanent settings → s.inFlight settings = false ∧
          s.listed = false) ∧
      (t.lease.calls settings.caller = .holding → t.turn.Unfinished → ¬ t.Permanent settings) := by
  have stepped : s.step settings (.removeLock removed) = some t := returned
  obtain ⟨turnKept, flightKept⟩ := removeLock_frame settings stepped
  refine ⟨?_, ?_, ?_⟩
  · rintro ⟨quiet, unlisted⟩
    apply DeletionState.Gone.permanent
    refine ⟨flightKept.trans quiet, ?_⟩
    rw [turnKept]
    simpa [DeletionState.listed] using unlisted
  · intro absent permanent
    constructor
    · by_contra flying
      rw [Bool.not_eq_false] at flying
      have others := deletion_testsOthers (reachable_testsOthers reached) stepped
      exact DeletionState.not_permanent_of_inFlight others absent
        (flightKept.trans flying) permanent
    · have hidden := (permanent t .refl).1
      rwa [DeletionState.listed, turnKept] at hidden
  · intro holds unfinished
    exact DeletionState.not_permanent_of_unfinished
      (deletion_inStep (reachable_inStep reached) stepped) holds
      unfinished

/-- A deletion that nothing interrupts does to the files what a delete does. -/
theorem deletion_alone (alive : s.lease.alive settings.caller.pid)
    (stopped : s.deletion.inProgress = false)
    {files : ConversationFiles}
    (deleted : deleteConversation s.turn.files settings.id = .ok files) :
    ∃ t, (deletionMachine settings).exec s
      [.callDelete, .removeMeta true, .removeLog true, .removeLock true] = some t ∧
      t.turn.files = files ∧ t.lease.lockfile = none ∧ t.deletion = .returned := by
  unfold deleteConversation at deleted
  split at deleted
  · next present =>
    cases deleted
    have called : s.callDelete settings = some { s with deletion := .checked } := by
      simp [DeletionState.callDelete, alive, stopped, present]
    have unlisted : ({ s with deletion := .checked } : DeletionState).removeMeta true =
        some { s.setFiles { s.turn.files with metaFile := none } with
            deletion := .metaRemoved } := by
      simp [DeletionState.removeMeta, present, DeletionState.setFiles]
    simp only [Machine.exec, deletionMachine, DeletionState.step, called, unlisted,
      Option.bind_some]
    exact ⟨_, rfl, rfl, rfl, rfl⟩
  · cases deleted

end Returned

def greetingDeletion : DeletionSettings :=
  { greetingSettings with host := "host", caller := ⟨1, 0⟩ }

/-- No process runs. -/
def asleep (files : ConversationFiles) : DeletionState :=
  ⟨⟨none, 0, fun _ => false, fun _ => .idle⟩, ⟨files, false, false, .idle⟩, .idle⟩

theorem asleep_starts (settings : DeletionSettings) (files : ConversationFiles) :
    (deletionMachine settings).start (asleep files) := ⟨fun _ => rfl, fun _ => rfl, rfl, rfl, rfl⟩

/-- The conversation is deleted while its loop is about to ask the model. -/
def busyDeletion : List DeletionAction :=
  [.lease (.spawn 1), .lease (.spawn 2), .lease (.acquire ⟨1, 0⟩), .lease (.advance ⟨1, 0⟩ false),
    .lease (.advance ⟨1, 0⟩ false), .lease (.advance ⟨1, 0⟩ false),
    .turn (.prepare 1 ⟨true, true, true⟩ greetingInput (.ok ⟨none, []⟩)),
    .turn (.recordMeta 2 true), .turn (.recordUser 3 .whole true), .callDelete, .removeMeta true,
      .removeLog true]

/-- Another process takes the lease, and the turn fails and saves. -/
def afterBusyDeletion : List DeletionAction :=
  [.lease (.acquire ⟨2, 0⟩), .lease (.advance ⟨2, 0⟩ false), .lease (.advance ⟨2, 0⟩ false),
    .lease (.advance ⟨2, 0⟩ false), .turn (.agent .proceed), .turn (.handle 4 .whole true),
    .turn (.agent (.reply (.error (.apiError "down")))), .turn (.save 5 ⟨true, true, true⟩)]

/-- What follows the deletion is all of the same turn. -/
theorem afterBusyDeletion_sameTurn (t : DeletionState) :
    (deletionMachine greetingDeletion).Permits (sameTurn greetingDeletion) t afterBusyDeletion := by
  apply Machine.permits_of_forall
  simp [afterBusyDeletion, sameTurn, greetingDeletion]

/-- After the deletion has returned, the turn lists the conversation again, and
two processes hold its lease. -/
theorem deletion_undone : ∃ s t u, (deletionMachine greetingDeletion).Reachable s ∧
    (deletionMachine greetingDeletion).step s (.removeLock true) = some t ∧
    (deletionMachine greetingDeletion).Runs (sameTurn greetingDeletion) t u ∧ u.listed ∧
    u.loadable greetingDeletion ∧
    u.lease.calls greetingDeletion.caller = .holding ∧ u.lease.Holds 2 ∧
      ¬ t.Permanent greetingDeletion := by
  obtain ⟨s, t, u, executed, returned, later, listed, loadable, holds, other⟩ : ∃ s t u,
      (deletionMachine greetingDeletion).exec (asleep .absent) busyDeletion = some s ∧
      (deletionMachine greetingDeletion).step s (.removeLock true) = some t ∧
      (deletionMachine greetingDeletion).exec t afterBusyDeletion = some u ∧ u.listed ∧
      u.loadable greetingDeletion ∧ u.lease.calls greetingDeletion.caller = .holding ∧
          u.lease.Holds 2 :=
    ⟨_, _, _, rfl, rfl, rfl, rfl, rfl, rfl, 0, rfl⟩
  have reached := Machine.reachable_of_exec (asleep_starts greetingDeletion .absent) executed
  have run := Machine.exec_runs (afterBusyDeletion_sameTurn t) later
  refine ⟨s, t, u, reached, returned, run, listed, loadable, holds, other, fun permanent => ?_⟩
  have hidden := (permanent u run).1
  rw [listed] at hidden
  cases hidden

/-- A turn is under way when the deletion is called, and has saved and dropped the lease
before the deletion returns. -/
def timelyTurn : List DeletionAction :=
  [.lease (.spawn 1), .lease (.acquire ⟨1, 0⟩), .lease (.advance ⟨1, 0⟩ false),
    .lease (.advance ⟨1, 0⟩ false), .lease (.advance ⟨1, 0⟩ false),
    .turn (.prepare 1 ⟨true, true, true⟩ greetingInput (.ok ⟨none, []⟩)),
    .turn (.recordMeta 2 true), .turn (.recordUser 3 .whole true), .callDelete,
    .turn (.agent .proceed), .turn (.handle 4 .whole true),
    .turn (.agent (.reply (.error (.apiError "down")))),
    .turn (.save 5 ⟨true, true, true⟩), .removeMeta true, .removeLog true, .lease (.drop ⟨1, 0⟩),
    .lease (.advance ⟨1, 0⟩ false), .lease (.advance ⟨1, 0⟩ false)]

/-- The deletion that the turn does not outlast is permanent, and the one
that the turn outlasts is not. -/
theorem deletion_permanent_sample :
    (∃ s t, (deletionMachine greetingDeletion).step s (.removeLock true) = some t ∧
        t.Permanent greetingDeletion) ∧
      ∃ s t, (deletionMachine greetingDeletion).step s (.removeLock true) = some t ∧
        ¬ t.Permanent greetingDeletion := by
  constructor
  · obtain ⟨s, t, executed, returned, quiet, unlisted⟩ : ∃ s t,
        (deletionMachine greetingDeletion).exec (asleep .absent) timelyTurn = some s ∧
        (deletionMachine greetingDeletion).step s (.removeLock true) = some t ∧
        s.inFlight greetingDeletion = false ∧ s.listed = false := ⟨_, _, rfl, rfl, rfl, rfl⟩
    have reached := Machine.reachable_of_exec (asleep_starts greetingDeletion .absent) executed
    exact ⟨s, t, returned, (deletion_permanent reached returned).1 ⟨quiet, unlisted⟩⟩
  · obtain ⟨s, t, executed, returned, absent, flies⟩ : ∃ s t,
        (deletionMachine greetingDeletion).exec (asleep .absent) busyDeletion = some s ∧
        (deletionMachine greetingDeletion).step s (.removeLock true) = some t ∧
        t.lease.lockfile = none ∧ s.inFlight greetingDeletion = true := ⟨_, _, rfl, rfl, rfl, rfl⟩
    have reached := Machine.reachable_of_exec (asleep_starts greetingDeletion .absent) executed
    refine ⟨s, t, returned, fun permanent => ?_⟩
    obtain ⟨quiet, _⟩ := (deletion_permanent reached returned).2.1 absent permanent
    rw [flies] at quiet
    cases quiet

end Openheim.Runtime
