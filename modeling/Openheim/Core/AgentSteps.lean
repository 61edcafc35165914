import Openheim.Core.Agent

namespace Openheim

/-- Where the loop of a run can go in one step, when no answer of the gate arrives. -/
inductive PhaseStep (json : SerdeJson) : Phase → Phase → Prop where
  | stay (phase : Phase) : PhaseStep json phase phase
  | finish (phase : Phase) (result : Except Error AgentResult) :
      PhaseStep json phase (.returned result)
  | send (iteration retries : Nat) (request : Request) :
      PhaseStep json (.iterating iteration) (.sending iteration retries request)
  | resend (iteration first second : Nat) (old new : Request) :
      PhaseStep json (.sending iteration first old) (.sending iteration second new)
  | continue (iteration retries : Nat) (request : Request) :
      PhaseStep json (.sending iteration retries request) (.iterating (iteration + 1))
  | announce (iteration retries : Nat) (request : Request) (choice : Reply) :
      PhaseStep json (.sending iteration retries request) (.announced iteration choice)
  | ask (iteration : Nat) (choice : Reply) :
      PhaseStep json (.announced iteration choice)
          (.deciding iteration choice (choice.message.toolCalls.map fun call =>
        if argumentsAreUsable json call.arguments then .pending else .malformed))
  | dispatch (iteration : Nat) (choice : Reply) (decisions : List Decision)
      (progress : List Progress) :
      PhaseStep json (.deciding iteration choice decisions)
        (.executing iteration choice decisions progress)
  | advance (iteration : Nat) (choice : Reply) (decisions : List Decision)
      (old new : List Progress) :
      PhaseStep json (.executing iteration choice decisions old)
        (.executing iteration choice decisions new)
  | skip (iteration : Nat) (choice : Reply) :
      PhaseStep json (.announced iteration choice) (.recorded iteration)
  | abandon (iteration : Nat) (choice : Reply) (decisions : List Decision) :
      PhaseStep json (.deciding iteration choice decisions) (.recorded iteration)
  | leave (iteration : Nat) (choice : Reply) (decisions : List Decision)
      (progress : List Progress) :
      PhaseStep json (.executing iteration choice decisions progress) (.recorded iteration)
  | next (iteration : Nat) : PhaseStep json (.recorded iteration) (.iterating (iteration + 1))

/-- The calls whose permission is settled or being settled. -/
def Phase.decisions : Phase → Option (Nat × Reply × List Decision)
  | .deciding iteration choice decisions | .executing iteration choice decisions _ =>
      some (iteration, choice, decisions)
  | _ => none

/-- Calls of this iteration may have been checked already. -/
def Phase.mayHaveChecked : Phase → Nat → Prop
  | .iterating current, iteration | .sending current _ _, iteration
  | .announced current _, iteration =>
      iteration < current
  | .deciding current _ _, iteration | .executing current _ _ _, iteration
  | .recorded current, iteration =>
      iteration ≤ current
  | .returned _, _ => True

theorem Phase.mayHaveChecked_iff {phase : Phase} {iteration past : Nat} {choice : Reply}
    {decisions : List Decision} (inside : phase.decisions = some (iteration, choice, decisions)) :
    phase.mayHaveChecked past ↔ past ≤ iteration := by
  cases phase with
  | deciding => cases inside; rfl
  | executing => cases inside; rfl
  | _ => cases inside

/-- No step goes back behind an iteration. -/
theorem PhaseStep.mayHaveChecked {json : SerdeJson} {old new : Phase}
    (step : PhaseStep json old new) {iteration : Nat}
    (before : old.mayHaveChecked iteration) : new.mayHaveChecked iteration := by
  cases step with
  | stay => exact before
  | finish => trivial
  | _ => simp only [Phase.mayHaveChecked] at before ⊢; omega

namespace AgentRun
variable {run after : AgentRun} {json : SerdeJson}

theorem send_phase (run : AgentRun) (iteration overflowRetries : Nat) :
    ∃ request, (run.send iteration overflowRetries).phase =
      .sending iteration overflowRetries request := by
  unfold AgentRun.send
  dsimp only
  split
  · exact ⟨_, rfl⟩
  · exact ⟨_, rfl⟩

/-- A reply ends the turn, continues the loop or announces calls. -/
theorem accept_step (run : AgentRun) (iteration overflowRetries : Nat) (request : Request)
    (choice : Reply) :
    PhaseStep json (.sending iteration overflowRetries request)
      (run.accept iteration request choice).phase := by
  unfold AgentRun.accept
  dsimp only
  split
  · split
    · exact .continue _ _ _
    · exact .finish _ _
  · exact .announce _ _ _ _

theorem reject_step (run : AgentRun) (iteration overflowRetries : Nat) (request : Request)
    (error : Error) :
    PhaseStep json (.sending iteration overflowRetries request)
      (run.reject iteration overflowRetries request error).phase := by
  unfold AgentRun.reject
  split
  · split
    · exact .finish _ _
    · split
      · exact .finish _ _
      · obtain ⟨next, phase⟩ := send_phase { run with fitter := _ } iteration (overflowRetries + 1)
        rw [phase]
        exact .resend _ _ _ _ _
  · exact .finish _ _

theorem proceed_step (stepped : run.proceed json = some after) :
    PhaseStep json run.phase after.phase := by
  unfold AgentRun.proceed at stepped
  split at stepped
  · rename_i iteration phase
    rw [phase]
    split at stepped
    · cases stepped
      exact .finish _ _
    · split at stepped
      · cases stepped
        exact .finish _ _
      · cases stepped
        obtain ⟨request, sent⟩ := send_phase
          ({ run with iterationsUsed := iteration + 1 }.emit [.iterationStart (iteration + 1)])
            iteration 0
        rw [sent]
        exact .send _ _ _
  · rename_i iteration choice phase
    rw [phase]
    split at stepped
    · cases stepped
      exact .skip _ _
    · cases stepped
      exact .ask _ _
  · rename_i iteration choice decisions phase
    rw [phase]
    split at stepped
    · cases stepped
    · cases stepped
      exact .dispatch _ _ _ _
  · rename_i iteration choice decisions progress phase
    rw [phase]
    split at stepped
    · cases stepped
      exact .leave _ _ _ _
    · cases stepped
  · rename_i iteration phase
    rw [phase]
    split at stepped
    · cases stepped
      exact .finish _ _
    · cases stepped
      exact .next _
  · cases stepped

theorem observeCancel_step (stepped : run.observeCancel = some after) :
    PhaseStep json run.phase after.phase := by
  unfold AgentRun.observeCancel at stepped
  split at stepped
  · split at stepped
    · cases stepped
      exact .finish _ _
    · rename_i phase
      cases stepped
      rw [phase]
      exact .abandon _ _ _
    · rename_i phase
      cases stepped
      rw [phase]
      exact .leave _ _ _ _
    · cases stepped
  · cases stepped

theorem complete_step {index : Nat} {result : Except String String}
    (stepped : run.complete index result = some after) :
    PhaseStep json run.phase after.phase := by
  unfold AgentRun.complete at stepped
  split at stepped
  · rename_i phase
    rw [phase]
    split at stepped
    · obtain ⟨text, _, rfl⟩ := Option.map_eq_some_iff.mp stepped
      exact .advance _ _ _ _ _
    · split at stepped
      · cases stepped
        exact .advance _ _ _ _ _
      · cases stepped
        exact .advance _ _ _ _ _
    · cases stepped
  · cases stepped

/-- A call that the executor is handed was allowed. -/
theorem execute_eq {index : Nat} (stepped : run.execute index = some after) :
    ∃ iteration choice decisions progress decision,
      run.phase = .executing iteration choice decisions progress ∧
      decisions[index]? = some (.decided decision) ∧ decision.isAllowed ∧
      after.phase = .executing iteration choice decisions (progress.set index .executing) := by
  unfold AgentRun.execute at stepped
  split at stepped
  · rename_i iteration choice decisions progress phase
    split at stepped
    · rename_i decision decided reached
      split at stepped
      · rename_i allowed
        cases stepped
        exact ⟨iteration, choice, decisions, progress, decision, phase, decided, allowed, rfl⟩
      · cases stepped
    · cases stepped
  · cases stepped

/-- An answer of the gate settles one pending call. -/
theorem decide_eq {index : Nat} {decision : PermissionDecision}
    (stepped : run.decide index decision = some after) :
    ∃ iteration choice decisions, run.phase = .deciding iteration choice decisions ∧
      decisions[index]? = some .pending ∧
      after.phase = .deciding iteration choice (decisions.set index (.decided decision)) := by
  unfold AgentRun.decide at stepped
  split at stepped
  · rename_i iteration choice decisions phase
    split at stepped
    · rename_i pending
      cases stepped
      exact ⟨iteration, choice, decisions, phase, pending, rfl⟩
    · cases stepped
  · cases stepped

/-- This is every step of a run that is no answer of the gate. -/
theorem step_phase {action : AgentAction} (stepped : run.step json action = some after)
    (unanswered : ∀ index decision, action ≠ .decide index decision) :
    PhaseStep json run.phase after.phase := by
  cases action with
  | cancel =>
      cases stepped
      exact .stay _
  | proceed => exact proceed_step stepped
  | chunk chunk =>
      simp only [AgentRun.step] at stepped
      split at stepped
      · cases stepped
        exact .stay _
      · cases stepped
  | reply reply =>
      simp only [AgentRun.step] at stepped
      split at stepped
      · rename_i phase
        cases stepped
        rw [phase]
        exact accept_step _ _ _ _ _
      · rename_i phase
        cases stepped
        rw [phase]
        exact reject_step _ _ _ _ _
      · cases stepped
  | decide index decision => exact absurd rfl (unanswered index decision)
  | execute index =>
      obtain ⟨iteration, choice, decisions, progress, decision, before, _, _, after⟩ :=
        execute_eq stepped
      rw [before, after]
      exact .advance _ _ _ _ _
  | complete index result => exact complete_step stepped
  | observeCancel => exact observeCancel_step stepped

end AgentRun

end Openheim
