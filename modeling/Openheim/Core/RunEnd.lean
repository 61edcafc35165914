import Openheim.Core.AgentHistory
import Openheim.Core.AgentSteps

/-
This file shows how a run of `run_agent` ends: with which event, after how many iterations, and for
which reason.
-/

namespace Openheim

def isFinished : StreamEvent → Bool
  | .finished _ _ => true
  | _ => false

def isIterationStart : StreamEvent → Bool
  | .iterationStart _ => true
  | _ => false

/-- A reply without calls that ends the turn. -/
def FinalAnswer (choice : Reply) : Prop :=
  choice.message.toolCalls = [] ∧
    stopForReplyWithoutTools choice.finishReason choice.message.text.isSome ≠ none

/-- Only a paused reply without calls lets the loop go on. -/
theorem stopForReplyWithoutTools_eq_none {finishReason : Option FinishReason} {hasText : Bool} :
    stopForReplyWithoutTools finishReason hasText = none ↔ finishReason = some .paused := by
  cases finishReason with
  | none => cases hasText <;> simp [stopForReplyWithoutTools]
  | some reason => cases reason <;> cases hasText <;> simp [stopForReplyWithoutTools]

def AgentAction.arrived : AgentAction → Option Reply
  | .reply (.ok choice) => some choice
  | _ => none

/-- The last reply that arrives in some actions. -/
def lastReply (actions : List AgentAction) : Option Reply :=
  actions.reverse.findSome? AgentAction.arrived

/-- The reply that arrives last is the last one. -/
theorem lastReply_append (actions : List AgentAction) (choice : Reply) :
    lastReply (actions ++ [.reply (.ok choice)]) = some choice := by
  rw [lastReply, List.reverse_append]
  rfl

/-- The iterations begun when the loop stands in a phase. -/
def Phase.begun : Phase → Option Nat
  | .iterating iteration => some iteration
  | .sending iteration _ _ | .announced iteration _ | .deciding iteration _ _
  | .executing iteration _ _ _
  | .recorded iteration => some (iteration + 1)
  | .returned _ => none

/-- A loop that stands in an iteration has not returned. -/
theorem Phase.notReturned_of_begun {phase : Phase} (begun : phase.begun.isSome)
    (result : Except Error AgentResult) :
    phase ≠ .returned result := by
  rintro rfl
  cases begun

namespace AgentRun

/-- A run goes on to another one without an event about an iteration or the end. -/
structure Continues (run after : AgentRun) : Prop where
  events : ∃ extra, after.events = run.events ++ extra ∧
    ∀ event ∈ extra, isFinished event = false ∧ isIterationStart event = false
  used : after.iterationsUsed = run.iterationsUsed
  config : after.config = run.config
  cancelled : after.cancelled = run.cancelled

/-- Why the loop ends when the model was asked. -/
inductive EndCause (run : AgentRun) (action : AgentAction) : StopReason → Prop where
  | cancelled : EndCause run action .cancelled
  | exhausted (iteration : Nat) :
      run.phase = .iterating iteration → run.config.maxIterations ≤ iteration →
      action = .proceed → EndCause run action .maxIterations
  | answered (choice : Reply) (reason : StopReason) :
      action = .reply (.ok choice) → FinalAnswer choice →
      EndCause run action reason

/-- What a step does to the iterations and the end of a run. -/
inductive EndStep (run after : AgentRun) (action : AgentAction) : Prop where
  | cancel (fires : action = .cancel) (same : after = { run with cancelled := true })
  | begin (iteration : Nat) (stands : run.phase = .iterating iteration)
      (allowed : iteration < run.config.maxIterations)
      (goesOn :
        Continues ({ run with iterationsUsed := iteration + 1 }.emit
          [.iterationStart (iteration + 1)]) after)
      (phase : after.phase.begun = some (iteration + 1))
      (inside : ∀ next, after.phase ≠ .iterating next)
  | stay (goesOn : Continues run after) (iterations : Nat)
      (before : run.phase.begun = some iterations)
      (phase : after.phase.begun = some iterations)
      (seen : ∀ iteration, after.phase = .iterating iteration → run.cancelled = false ∨
        ∃ last retries request choice, iteration = last + 1 ∧
          run.phase = .sending last retries request ∧ action = .reply (.ok choice) ∧
            choice.message.toolCalls = [] ∧ choice.finishReason = some .paused)
  | fail (goesOn : Continues run after) (error : Error) (before : run.phase.begun.isSome)
      (phase : after.phase = .returned (.error error))
  | finish (middle : AgentRun) (goesOn : Continues run middle) (reason : StopReason)
      (before : run.phase.begun.isSome)
      (cause : EndCause run action reason) (ends : after = middle.finish reason)

section Continues
variable {run middle after : AgentRun}

theorem Continues.refl (run : AgentRun) : Continues run run := ⟨⟨[], by simp⟩, rfl, rfl, rfl⟩

/-- A run that goes on twice goes on. -/
theorem Continues.trans (first : Continues run middle) (second : Continues middle after) :
    Continues run after := by
  obtain ⟨extra, added, silent⟩ := first.events
  obtain ⟨more, adds, quiet⟩ := second.events
  refine ⟨⟨extra ++ more, ?_, fun event member => ?_⟩, second.used.trans first.used,
    second.config.trans first.config, second.cancelled.trans first.cancelled⟩
  · rw [adds, added, List.append_assoc]
  · exact (List.mem_append.mp member).elim (silent event) (quiet event)

/-- Entering another phase adds no event. -/
theorem Continues.enter (goesOn : Continues run after) (phase : Phase) :
    Continues run (after.enter phase) :=
  ⟨goesOn.events, goesOn.used, goesOn.config, goesOn.cancelled⟩

/-- Events about neither an iteration nor the end go on. -/
theorem continues_emit (run : AgentRun) {events : List StreamEvent}
    (silent : ∀ event ∈ events, isFinished event = false ∧ isIterationStart event = false) :
    Continues run (run.emit events) :=
  ⟨⟨events, rfl, silent⟩, rfl, rfl, rfl⟩

/-- Appending a message goes on. -/
theorem continues_append (run : AgentRun) (message : Message) :
    Continues run (run.append message) :=
  ⟨⟨[.messageAppended message], rfl, by simp [isFinished, isIterationStart]⟩, rfl, rfl, rfl⟩

/-- Reporting the usage goes on. -/
theorem continues_reportUsage (run : AgentRun) (usage : Option Usage) :
    Continues run (run.reportUsage usage) := by
  cases usage with
  | none => exact .refl run
  | some usage =>
    exact ⟨⟨[.usage usage], rfl, by simp [isFinished, isIterationStart]⟩, rfl, rfl, rfl⟩

/-- Recording results goes on. -/
theorem continues_record (run : AgentRun) (calls : List (ToolUseBlock × Option (String × Bool))) :
    Continues run (run.record calls) := by
  induction calls generalizing run with
  | nil => exact .refl run
  | cons entry rest ih =>
      obtain ⟨call, outcome⟩ := entry
      cases outcome with
      | some outcome => exact (continues_append run _).trans (ih _)
      | none =>
          have announced :
              Continues run (run.emit [announceResult call cancelledToolResult true]) :=
            continues_emit run (by simp [announceResult, isFinished, isIterationStart])
          exact (announced.trans (continues_append _ _)).trans (ih _)

/-- Leaving the calls with their outcomes goes on. -/
theorem continues_leaveCalls (run : AgentRun) (iteration : Nat) (choice : Reply)
    (outcomes : List (Option (String × Bool))) :
    Continues run (run.leaveCalls iteration choice outcomes) :=
  (continues_record run _).enter _

/-- Sending goes on, and the loop then stands in the iteration that was begun. -/
theorem continues_send (run : AgentRun) (iteration retries : Nat) :
    Continues run (run.send iteration retries) ∧
      (run.send iteration retries).phase.begun = some (iteration + 1) ∧
      ∀ next, (run.send iteration retries).phase ≠ .iterating next := by
  unfold AgentRun.send
  dsimp only
  split
  · refine ⟨⟨⟨[.contextTrimmed _], rfl, ?_⟩, rfl, rfl, rfl⟩, rfl, by simp [AgentRun.enter]⟩
    simp [isFinished, isIterationStart]
  · exact ⟨(Continues.refl run).enter _, rfl, by simp [AgentRun.enter]⟩

end Continues

section Steps
variable {run after : AgentRun} {json : SerdeJson} {action : AgentAction}

/-- A step that moves on within an iteration. -/
theorem EndStep.within (goesOn : Continues run after) {iterations : Nat}
    (before : run.phase.begun = some iterations)
    (phase : after.phase.begun = some iterations) (inside : ∀ next, after.phase ≠ .iterating next) :
    EndStep run after action :=
  .stay goesOn iterations before phase fun iteration stands => absurd stands (inside iteration)

/-- Leaving the calls stays within the iteration. -/
theorem endStep_leaveCalls {iteration : Nat} (before : run.phase.begun = some (iteration + 1))
    (choice : Reply)
    (outcomes : List (Option (String × Bool))) :
    EndStep run (run.leaveCalls iteration choice outcomes) action :=
  .within (continues_leaveCalls run iteration choice outcomes) before rfl
    (by simp [AgentRun.leaveCalls, AgentRun.enter])

/-- A reply goes on within its iteration, ends the run or lets it go on to the next. -/
theorem endStep_accept {iteration retries : Nat} {request : Request} (choice : Reply)
    (before : run.phase = .sending iteration retries request) :
    EndStep run (run.accept iteration request choice) (.reply (.ok choice)) := by
  have begun : run.phase.begun = some (iteration + 1) := by rw [before]; rfl
  let fitter := choice.usage.elim run.fitter (run.fitter.recordUsage request.bytes)
  let appended := ({ run with fitter }.append choice.message).reportUsage choice.usage
  have calibrated : Continues run { run with fitter } := ⟨⟨[], by simp⟩, rfl, rfl, rfl⟩
  have goesOn : Continues run appended :=
    (calibrated.trans (continues_append _ choice.message)).trans
      (continues_reportUsage _ choice.usage)
  unfold AgentRun.accept
  dsimp only
  split
  · next noCalls =>
    have answered :
        Continues run { appended with
        finalResponse := choice.message.text.getD appended.finalResponse } :=
      ⟨goesOn.events, goesOn.used, goesOn.config, goesOn.cancelled⟩
    split
    · next paused =>
      refine .stay (answered.enter _) _ begun rfl fun next stands => .inr ?_
      cases stands
      exact ⟨iteration, retries, request, choice, rfl, before, rfl, List.isEmpty_iff.mp noCalls,
        stopForReplyWithoutTools_eq_none.mp paused⟩
    · next reason stops =>
      exact .finish _ answered reason (by rw [begun]; rfl)
        (.answered choice reason rfl ⟨List.isEmpty_iff.mp noCalls, by simp [stops]⟩) rfl
  · have announced : Continues run (appended.emit (choice.message.toolCalls.map announceCall)) :=
      goesOn.trans (continues_emit _ (by simp [announceCall, isFinished, isIterationStart]))
    exact .within (announced.enter _) begun rfl (by simp [AgentRun.enter])

/-- A failed request is sent again or ends the run with an error. -/
theorem endStep_reject {iteration retries : Nat} {request : Request} (error : Error)
    (before : run.phase = .sending iteration retries request) :
    EndStep run (run.reject iteration retries request error) action := by
  have begun : run.phase.begun = some (iteration + 1) := by rw [before]; rfl
  have failed (error : Error) : EndStep run (run.enter (.returned (.error error))) action :=
    .fail ((Continues.refl run).enter _) error (by rw [begun]; rfl) rfl
  unfold AgentRun.reject
  split
  · split
    · exact failed _
    · split
      · exact failed _
      · next fitter _ =>
        have calibrated : Continues run { run with fitter } := ⟨⟨[], by simp⟩, rfl, rfl, rfl⟩
        obtain ⟨goesOn, phase, inside⟩ := continues_send { run with fitter } iteration (retries + 1)
        exact .within (calibrated.trans goesOn) begun phase inside
  · exact failed _

/-- What the loop does by itself, seen by its iterations and its end. -/
theorem endStep_proceed (stepped : run.proceed json = some after) : EndStep run after .proceed := by
  unfold AgentRun.proceed at stepped
  split at stepped
  · next iteration phase =>
    have begun : run.phase.begun.isSome := by rw [phase]; rfl
    split at stepped
    · next exhausted =>
      cases stepped
      exact .finish run (.refl run) _ begun (.exhausted iteration phase exhausted rfl) rfl
    · next allowed =>
      split at stepped
      · cases stepped
        exact .finish run (.refl run) _ begun .cancelled rfl
      · cases stepped
        let begun :=
          { run with iterationsUsed := iteration + 1 }.emit [.iterationStart (iteration + 1)]
        obtain ⟨goesOn, sent, inside⟩ := continues_send begun iteration 0
        exact .begin iteration phase (Nat.lt_of_not_le allowed) goesOn sent inside
  · next iteration choice phase =>
    have begun : run.phase.begun = some (iteration + 1) := by rw [phase]; rfl
    split at stepped
    · cases stepped
      exact endStep_leaveCalls begun choice _
    · cases stepped
      exact .within ((Continues.refl run).enter _) begun rfl (by simp [AgentRun.enter])
  · next iteration choice decisions phase =>
    split at stepped
    · cases stepped
    · cases stepped
      exact .within ((Continues.refl run).enter _) (by rw [phase]; rfl) rfl
        (by simp [AgentRun.enter])
  · next iteration choice decisions progress phase =>
    split at stepped
    · cases stepped
      exact endStep_leaveCalls (by rw [phase]; rfl) choice _
    · cases stepped
  · next iteration phase =>
    have begun : run.phase.begun = some (iteration + 1) := by rw [phase]; rfl
    split at stepped
    · cases stepped
      exact .finish run (.refl run) _ (by rw [begun]; rfl) .cancelled rfl
    · next silent =>
      cases stepped
      exact .stay ((Continues.refl run).enter _) _ begun rfl fun _ _ =>
        .inl (Bool.not_eq_true _ ▸ silent)
  · cases stepped

/-- Looking at the token ends the run as cancelled or stays within the iteration. -/
theorem endStep_observeCancel (stepped : run.observeCancel = some after) :
    EndStep run after action := by
  unfold AgentRun.observeCancel at stepped
  split at stepped
  · split at stepped
    · next phase =>
      cases stepped
      exact .finish run (.refl run) _ (by rw [phase]; rfl) .cancelled rfl
    · next phase =>
      cases stepped
      exact endStep_leaveCalls (by rw [phase]; rfl) _ _
    · next phase =>
      cases stepped
      exact endStep_leaveCalls (by rw [phase]; rfl) _ _
    · cases stepped
  · cases stepped

/-- Settling a call stays within the iteration. -/
theorem endStep_settle {iteration : Nat} (before : run.phase.begun = some (iteration + 1))
    (choice : Reply)
    (decisions : List Decision) (progress : List Progress) (index : Nat) (call : ToolUseBlock)
    (result : String) (isError : Bool) :
    EndStep run (run.settle iteration choice decisions progress index call result isError) action :=
  .within ((continues_emit run (by simp [announceResult, isFinished, isIterationStart])).enter _)
    before rfl
    (by simp [AgentRun.settle, AgentRun.enter])

/-- A call that completes stays within the iteration. -/
theorem endStep_complete {index : Nat} {result : Except String String}
    (stepped : run.complete index result = some after) : EndStep run after action := by
  unfold AgentRun.complete at stepped
  split at stepped
  · next phase =>
    split at stepped
    · obtain ⟨text, _, rfl⟩ := Option.map_eq_some_iff.mp stepped
      exact endStep_settle (by rw [phase]; rfl) _ _ _ _ _ _ _
    · split at stepped
      · cases stepped
        exact endStep_settle (by rw [phase]; rfl) _ _ _ _ _ _ _
      · cases stepped
        exact endStep_settle (by rw [phase]; rfl) _ _ _ _ _ _ _
    · cases stepped
  · cases stepped

/-- Every step of the loop, seen by its iterations and its end. -/
theorem step_end (stepped : run.step json action = some after) : EndStep run after action := by
  cases action with
  | cancel =>
      cases stepped
      exact .cancel rfl rfl
  | proceed => exact endStep_proceed stepped
  | chunk chunk =>
      simp only [AgentRun.step] at stepped
      split at stepped
      · next phase =>
        cases stepped
        refine .within (continues_emit run ?_) (by rw [phase]; rfl)
          (by rw [AgentRun.emit, phase]; rfl)
          (by simp [AgentRun.emit, phase])
        cases chunk <;> simp [forwardChunk, isFinished, isIterationStart]
      · cases stepped
  | reply reply =>
      simp only [AgentRun.step] at stepped
      split at stepped
      · next phase =>
        cases stepped
        exact endStep_accept _ phase
      · next phase =>
        cases stepped
        exact endStep_reject _ phase
      · cases stepped
  | decide index decision =>
      simp only [AgentRun.step, AgentRun.decide] at stepped
      split at stepped
      · next phase =>
        split at stepped
        · cases stepped
          exact .within ((Continues.refl run).enter _) (by rw [phase]; rfl) rfl
            (by simp [AgentRun.enter])
        · cases stepped
      · cases stepped
  | execute index =>
      simp only [AgentRun.step, AgentRun.execute] at stepped
      split at stepped
      · next phase =>
        split at stepped
        · split at stepped
          · cases stepped
            exact .within ((Continues.refl run).enter _) (by rw [phase]; rfl) rfl
              (by simp [AgentRun.enter])
          · cases stepped
        · cases stepped
      · cases stepped
  | complete index result => exact endStep_complete stepped
  | observeCancel => exact endStep_observeCancel stepped

end Steps

/-- The events of a run tell its iterations, and they close with its result. -/
structure EndsTruthfully (run : AgentRun) : Prop where
  finished : ∀ result, run.phase = .returned (.ok result) → ∃ earlier,
    run.events = earlier ++ [.finished result.finalResponse result.iterationsUsed] ∧
      ∀ event ∈ earlier, isFinished event = false
  unfinished : (∀ result, run.phase ≠ .returned (.ok result)) → ∀ event ∈ run.events,
    isFinished event = false
  counted : ∀ result, run.phase = .returned (.ok result) →
    result.iterationsUsed = run.events.countP isIterationStart ∧
      result.iterationsUsed ≤ run.config.maxIterations

/-- The run has not closed, and has begun some iterations. -/
structure Unfinished (run : AgentRun) (iterations : Nat) : Prop where
  silent : ∀ event ∈ run.events, isFinished event = false
  counted : run.events.countP isIterationStart = iterations
  used : run.iterationsUsed = iterations
  bounded : iterations ≤ run.config.maxIterations

/-- What is known at every moment of a run. -/
inductive EndInvariant (run : AgentRun) : Prop where
  | running (iterations : Nat) (begun : run.phase.begun = some iterations)
      (unfinished : run.Unfinished iterations)
  | failed (error : Error) (phase : run.phase = .returned (.error error)) (iterations : Nat)
      (unfinished : run.Unfinished iterations)
  | closed (result : AgentResult) (phase : run.phase = .returned (.ok result))
      (earlier : List StreamEvent)
      (events : run.events = earlier ++ [.finished result.finalResponse result.iterationsUsed])
      (silent : ∀ event ∈ earlier, isFinished event = false)
      (counted : earlier.countP isIterationStart = result.iterationsUsed)
      (bounded : result.iterationsUsed ≤ run.config.maxIterations)

section Invariant
variable {run after : AgentRun} {iterations : Nat}

/-- A run that goes on is as far as it was. -/
theorem Unfinished.continues (old : run.Unfinished iterations) (goesOn : Continues run after) :
    after.Unfinished iterations := by
  obtain ⟨extra, added, silent⟩ := goesOn.events
  have none : extra.countP isIterationStart = 0 :=
    List.countP_eq_zero.mpr fun event member => by simp [(silent event member).2]
  refine ⟨fun event member => ?_, ?_, goesOn.used.trans old.used, goesOn.config ▸ old.bounded⟩
  · rw [added] at member
    exact (List.mem_append.mp member).elim (old.silent event) fun later => (silent event later).1
  · rw [added, List.countP_append, none, old.counted, Nat.add_zero]

/-- An announced iteration is one more, and within the limit. -/
theorem Unfinished.begin (old : run.Unfinished iterations)
    (allowed : iterations < run.config.maxIterations) :
    ({ run with iterationsUsed := iterations + 1 }.emit
        [.iterationStart (iterations + 1)]).Unfinished
      (iterations + 1) := by
  refine ⟨fun event member => ?_, ?_, rfl, allowed⟩
  · rcases List.mem_append.mp member with earlier | last
    · exact old.silent event earlier
    · rw [List.mem_singleton.mp last]
      rfl
  · simp [AgentRun.emit, old.counted, isIterationStart]

/-- A run that is finished tells its result in its last event. -/
theorem Unfinished.closed (old : run.Unfinished iterations) (reason : StopReason) :
    (run.finish reason).EndInvariant :=
  .closed _ rfl run.events rfl old.silent (old.counted.trans old.used.symm) (old.used ▸ old.bounded)

/-- Where the loop still stands in an iteration, nothing has closed. -/
theorem EndInvariant.unfinished (old : run.EndInvariant) (begun : run.phase.begun.isSome) :
    ∃ iterations, run.phase.begun = some iterations ∧ run.Unfinished iterations := by
  cases old with
  | running iterations stands unfinished => exact ⟨iterations, stands, unfinished⟩
  | failed error phase => exact absurd begun (by simp [phase, Phase.begun])
  | closed result phase => exact absurd begun (by simp [phase, Phase.begun])

/-- Every step keeps what is known of the iterations and the end. -/
theorem EndInvariant.step {json : SerdeJson} {action : AgentAction} (old : run.EndInvariant)
    (stepped : run.step json action = some after) : after.EndInvariant := by
  cases step_end stepped with
  | cancel fires same =>
      subst same
      cases old with
      | running iterations begun open_ =>
          exact .running iterations begun ⟨open_.silent, open_.counted, open_.used, open_.bounded⟩
      | failed error phase iterations open_ =>
          exact .failed error phase iterations ⟨open_.silent, open_.counted, open_.used,
            open_.bounded⟩
      | closed result phase earlier events silent counted bounded =>
          exact .closed result phase earlier events silent counted bounded
  | begin iteration stands allowed goesOn phase inside =>
      obtain ⟨iterations, begun, unfinished⟩ := old.unfinished (by rw [stands]; rfl)
      rw [stands] at begun
      cases begun
      exact .running _ phase ((unfinished.begin allowed).continues goesOn)
  | stay goesOn iterations before phase seen =>
      obtain ⟨others, begun, unfinished⟩ := old.unfinished (by rw [before]; rfl)
      rw [before] at begun
      cases begun
      exact .running _ phase (unfinished.continues goesOn)
  | fail goesOn error before phase =>
      obtain ⟨iterations, _, unfinished⟩ := old.unfinished before
      exact .failed error phase iterations (unfinished.continues goesOn)
  | finish middle goesOn reason before cause ends =>
      obtain ⟨iterations, _, unfinished⟩ := old.unfinished before
      exact ends ▸ (unfinished.continues goesOn).closed reason

/-- What is known of a run makes its events truthful. -/
theorem EndInvariant.truthful (known : run.EndInvariant) : EndsTruthfully run := by
  cases known with
  | running iterations begun unfinished =>
      have notOk (result : AgentResult) : run.phase ≠ .returned (.ok result) := by
        intro ok
        rw [ok] at begun
        cases begun
      exact ⟨fun result ok => absurd ok (notOk result), fun _ => unfinished.silent,
        fun result ok => absurd ok (notOk result)⟩
  | failed error phase iterations unfinished =>
      have notOk (result : AgentResult) : run.phase ≠ .returned (.ok result) := by simp [phase]
      exact ⟨fun result ok => absurd ok (notOk result), fun _ => unfinished.silent,
        fun result ok => absurd ok (notOk result)⟩
  | closed result phase earlier events silent counted bounded =>
      have same (other : AgentResult) (ok : run.phase = .returned (.ok other)) :
          other = result := by
        rw [phase] at ok
        cases ok
        rfl
      refine ⟨fun other ok => ?_, fun notOk => absurd phase (notOk result), fun other ok => ?_⟩
      · rw [same other ok]
        exact ⟨earlier, events, silent⟩
      · rw [same other ok, events, List.countP_append, counted]
        exact ⟨by simp [isIterationStart], bounded⟩

end Invariant

/-- The token does not fire where the loop looks at it no more: when it has left its last
iteration, or before a paused reply of its last iteration arrives. If no iteration is
allowed, it has not fired at all. -/
def TokenSeen (run : AgentRun) : AgentAction → Prop
  | .cancel => ∀ iteration, run.phase = .iterating iteration → iteration < run.config.maxIterations
  | .reply (.ok choice) => ∀ iteration retries request,
      run.phase = .sending iteration retries request → choice.message.toolCalls = [] →
      choice.finishReason = some .paused → run.cancelled = true →
      iteration + 1 < run.config.maxIterations
  | .proceed => run.phase = .iterating 0 → run.cancelled = true → 0 < run.config.maxIterations
  | _ => True

/-- The token fired, and the loop ends with its last iteration all the same. -/
def Missed (run : AgentRun) : Prop :=
  run.cancelled = true ∧
    ((∃ iteration, run.phase = .iterating iteration ∧ run.config.maxIterations ≤ iteration) ∨
      ∃ result, run.phase = .returned (.ok result) ∧ result.stopReason = .maxIterations)

section Cancel
variable {run after : AgentRun} {json : SerdeJson} {action : AgentAction} {messages : List Message}

/-- At the head of the loop there is no one to wait for. -/
theorem step_iterating {iteration : Nat} (stands : run.phase = .iterating iteration)
    (stepped : run.step json action = some after) : action = .cancel ∨ action = .proceed := by
  cases action <;>
    simp_all [AgentRun.step, AgentRun.decide, AgentRun.execute, AgentRun.complete,
      AgentRun.observeCancel]

/-- After the return only the token can still fire. -/
theorem step_returned {result : Except Error AgentResult} (stands : run.phase = .returned result)
    (stepped : run.step json action = some after) : action = .cancel := by
  cases action <;>
    simp_all [AgentRun.step, AgentRun.decide, AgentRun.execute, AgentRun.complete,
      AgentRun.observeCancel, AgentRun.proceed]

/-- A token that was missed stays missed. -/
theorem Missed.step (old : run.Missed) (stepped : run.step json action = some after) :
    after.Missed := by
  obtain ⟨fired, ⟨iteration, stands, exhausted⟩ | ⟨result, returned, reason⟩⟩ := old
  · rcases step_iterating stands stepped with rfl | rfl
    · cases stepped
      exact ⟨rfl, .inl ⟨iteration, stands, exhausted⟩⟩
    · simp only [AgentRun.step, AgentRun.proceed, stands, if_pos exhausted] at stepped
      cases stepped
      exact ⟨fired, .inr ⟨_, rfl, rfl⟩⟩
  · cases step_returned returned stepped
    cases stepped
    exact ⟨rfl, .inr ⟨result, returned, reason⟩⟩

/-- A paused reply without calls leads to the head of the next iteration. -/
theorem accept_paused (iteration : Nat) (request : Request) {choice : Reply}
    (noCalls : choice.message.toolCalls = []) (paused : choice.finishReason = some .paused) :
    (run.accept iteration request choice).phase = .iterating (iteration + 1) ∧
      (run.accept iteration request choice).cancelled = run.cancelled ∧
      (run.accept iteration request choice).config = run.config := by
  simp only [AgentRun.accept, noCalls, List.isEmpty_nil, if_true,
    stopForReplyWithoutTools_eq_none.mpr paused]
  cases choice.usage with
  | none => exact ⟨rfl, rfl, rfl⟩
  | some usage => exact ⟨rfl, rfl, rfl⟩

/-- A token that fires too late is missed. -/
theorem missed_of_unseen (stepped : run.step json action = some after)
    (unseen : ¬ run.TokenSeen action) :
    after.Missed := by
  cases action with
  | cancel =>
      simp only [TokenSeen, not_forall, Nat.not_lt] at unseen
      obtain ⟨iteration, stands, exhausted⟩ := unseen
      cases stepped
      exact ⟨rfl, .inl ⟨iteration, stands, exhausted⟩⟩
  | proceed =>
      simp only [TokenSeen, not_forall, Nat.not_lt] at unseen
      obtain ⟨stands, fired, exhausted⟩ := unseen
      simp only [AgentRun.step, AgentRun.proceed, stands, if_pos exhausted] at stepped
      cases stepped
      exact ⟨fired, .inr ⟨_, rfl, rfl⟩⟩
  | reply reply =>
      cases reply with
      | error error => exact absurd trivial unseen
      | ok choice =>
          simp only [TokenSeen, not_forall, Nat.not_lt] at unseen
          obtain ⟨iteration, retries, request, stands, noCalls, paused, fired, exhausted⟩ := unseen
          simp only [AgentRun.step, stands] at stepped
          cases stepped
          obtain ⟨phase, cancelled, config⟩ := @accept_paused run iteration request _ noCalls paused
          exact ⟨cancelled.trans fired, .inl ⟨_, phase, config ▸ exhausted⟩⟩
  | _ => exact absurd trivial unseen

/-- The token has not fired when a permitted step leaves the last iteration. -/
theorem not_cancelled_of_exhausted {iteration : Nat} (seen : run.TokenSeen action)
    (stepped : run.step json action = some after) (stands : after.phase = .iterating iteration)
    (exhausted : after.config.maxIterations ≤ iteration) : after.cancelled = false := by
  cases step_end stepped with
  | cancel fires same =>
      subst fires same
      exact absurd (seen _ stands) (Nat.not_lt.mpr exhausted)
  | begin _ _ _ _ _ inside => exact absurd stands (inside _)
  | stay goesOn iterations before phase looked =>
      rw [goesOn.cancelled]
      rw [goesOn.config] at exhausted
      rcases looked _ stands with silent | ⟨last, retries, request, choice, rfl, sending, rfl,
        noCalls, paused⟩
      · exact silent
      · by_contra fired
        have more := seen _ _ _ sending noCalls paused (by simpa using fired)
        omega
  | fail _ error _ phase =>
      rw [phase] at stands
      cases stands
  | finish middle _ reason _ _ ends =>
      subst ends
      cases stands

end Cancel

section Runs
variable {json : SerdeJson} {messages : List Message} {start run after : AgentRun}
  {actions : List AgentAction}

/-- What is known of the iterations and the end holds throughout every run. -/
theorem EndInvariant.of_reachable (reached : (agentLoop json messages).Reachable run) :
    run.EndInvariant := by
  refine reached.invariant ?_ fun _ _ _ before _ stepped => before.step stepped
  rintro _ ⟨config, promptBuilder, toolsBytes, cancelled, rfl⟩
  exact .running 0 rfl ⟨by simp [AgentRun.start], rfl, rfl, Nat.zero_le _⟩

/-- Where every action was permitted, the last iteration is left before the token fires. -/
theorem head_of_permitted (started : (agentLoop json messages).start start)
    (permitted : (agentLoop json messages).Permits TokenSeen start actions)
    (executed : (agentLoop json messages).exec start actions = some run) {iteration : Nat}
    (stands : run.phase = .iterating iteration) (exhausted : run.config.maxIterations ≤ iteration) :
    iteration = 0 ∨ run.cancelled = false := by
  rcases List.eq_nil_or_concat actions with rfl | ⟨before, last, rfl⟩
  · obtain ⟨config, promptBuilder, toolsBytes, cancelled, rfl⟩ := started
    cases executed
    cases stands
    exact .inl rfl
  · rw [List.concat_eq_append] at permitted executed
    rw [Machine.exec_append] at executed
    obtain ⟨middle, ran, ended⟩ := Option.bind_eq_some_iff.mp executed
    have seen := (Machine.permits_append permitted ran).2.1
    have stepped : middle.step json last = some run := by
      simpa [Machine.exec, agentLoop] using ended
    exact .inr (not_cancelled_of_exhausted seen stepped stands exhausted)

/-- Where some action was not permitted, the token is missed. -/
theorem missed_of_not_permitted (executed : (agentLoop json messages).exec start actions = some run)
    (refused : ¬ (agentLoop json messages).Permits TokenSeen start actions) : run.Missed := by
  induction actions generalizing start with
  | nil => exact absurd trivial refused
  | cons action rest ih =>
      obtain ⟨middle, stepped, tail⟩ := Option.bind_eq_some_iff.mp executed
      by_cases seen : start.TokenSeen action
      · refine ih tail fun permitted => refused ⟨seen, fun other also => ?_⟩
        rw [stepped] at also
        exact Option.some.inj also ▸ permitted
      · have runs := Machine.exec_runs (Machine.permits_free _ middle rest) tail
        exact runs.preserves (missed_of_unseen stepped seen) fun _ _ _ old _ next => old.step next

/-- A run closes with one event that tells its result, exactly when it returns one, and it uses
the iterations that it announces, no more than are allowed. Where it returns after the token
fired and the last reply was no final answer, it says so just when the token did not fire where
the loop looks at it no more. -/
theorem run_end (started : (agentLoop json messages).start start)
    (executed : (agentLoop json messages).exec start actions = some run) :
    EndsTruthfully run ∧
    ∀ last after result, run.step json last = some after → (∀ other, run.phase ≠ .returned other) →
      after.phase = .returned (.ok result) → run.cancelled = true →
      (∀ choice ∈ lastReply (actions ++ [last]), ¬ FinalAnswer choice) →
      (result.stopReason = .cancelled ↔
          (agentLoop json messages).Permits TokenSeen start (actions ++ [last])) := by
  refine ⟨(EndInvariant.of_reachable (Machine.reachable_of_exec started executed)).truthful, ?_⟩
  intro last after result stepped inside returned fired open_
  have whole : (agentLoop json messages).exec start (actions ++ [last]) = some after := by
    rw [Machine.exec_append, executed]
    simpa [Machine.exec, agentLoop] using stepped
  constructor
  · intro told
    by_contra refused
    obtain ⟨_, ⟨iteration, stands, _⟩ | ⟨other, ok, reason⟩⟩ :=
      missed_of_not_permitted whole refused
    · rw [returned] at stands
      cases stands
    · rw [returned] at ok
      cases ok
      rw [told] at reason
      cases reason
  · intro permitted
    obtain ⟨before, seen, _⟩ := Machine.permits_append permitted executed
    cases step_end stepped with
    | cancel fires same =>
        subst same
        exact absurd returned (inside _)
    | begin _ _ _ _ phase =>
      exact absurd returned (Phase.notReturned_of_begun (by rw [phase]; rfl) _)
    | stay _ _ _ phase => exact absurd returned (Phase.notReturned_of_begun (by rw [phase]; rfl) _)
    | fail _ error _ phase =>
        rw [phase] at returned
        cases returned
    | finish middle goesOn reason _ cause ends =>
        subst ends
        cases returned
        cases cause with
        | cancelled => rfl
        | exhausted iteration stands exhausted proceeds =>
            subst proceeds
            rcases head_of_permitted started before executed stands exhausted with rfl | silent
            · exact absurd (seen stands fired) (Nat.not_lt.mpr exhausted)
            · rw [fired] at silent
              cases silent
        | answered choice _ replied final =>
            subst replied
            exact absurd final (open_ choice (lastReply_append actions choice))

end Runs

/-- The token fires while the model is asked, and the run ends as cancelled. -/
theorem run_end_sample : ∃ run after result,
    (agentLoop sampleJson []).exec (.start sampleConfig none 0 [] false)
      [.proceed, .cancel] = some run ∧
      run.step sampleJson .observeCancel = some after ∧ after.phase = .returned (.ok result) ∧
      EndsTruthfully run ∧ result.stopReason = .cancelled := by
  have started : (agentLoop sampleJson []).start (.start sampleConfig none 0 [] false) :=
    ⟨sampleConfig, none, 0, false, rfl⟩
  obtain ⟨run, after, result, executed, stepped, returned, fired, inside⟩ : ∃ run after result,
      (agentLoop sampleJson []).exec (.start sampleConfig none 0 [] false) [.proceed,
        .cancel] = some run ∧ run.step sampleJson .observeCancel = some after ∧
        after.phase = .returned (.ok result) ∧ run.cancelled = true ∧ run.phase.begun = some 1 := by
    exact ⟨_, _, _, rfl, rfl, rfl, rfl, rfl⟩
  have permitted : (agentLoop sampleJson []).Permits TokenSeen (.start sampleConfig none 0 [] false)
      [.proceed, .cancel, .observeCancel] := by
    refine ⟨fun _ fired => (by cases fired), fun first began =>
      ⟨fun iteration stands => ?_, fun _ _ => ?_⟩⟩
    · cases began
      cases stands
    · exact ⟨trivial, fun _ _ => trivial⟩
  have ends := run_end started executed
  exact ⟨run, after, result, executed, stepped, returned, ends.1,
    (ends.2 .observeCancel after result stepped
    (Phase.notReturned_of_begun (by rw [inside]; rfl)) returned fired
      (fun _ arrived => by cases arrived)).mpr
      permitted⟩

/-- A reply that leaves the turn open. -/
def pausedAnswer : Reply := ⟨⟨.ofAssistant "searching", some .paused, none⟩, rfl⟩

def oneIteration : AgentRun :=
  .start ⟨"local", .openAiCompatible, "", "", "small", 1, 60, none, none, false,
    false⟩ none 0 [] false

/-- One iteration is allowed, the token fires before its paused reply arrives, and the
run ends for its iterations. -/
theorem token_missed : ∃ run after result,
    (agentLoop sampleJson []).exec oneIteration
        [.proceed, .cancel, .reply (.ok pausedAnswer)] = some run ∧
      run.cancelled = true ∧ run.phase = .iterating 1 ∧ run.step sampleJson .proceed = some after ∧
      after.phase = .returned (.ok result) ∧ ¬ FinalAnswer pausedAnswer ∧
      lastReply [.proceed, .cancel, .reply (.ok pausedAnswer), .proceed] = some pausedAnswer ∧
      result.stopReason = .maxIterations := by
  refine ⟨_, _, _, rfl, ?_, ?_, rfl, rfl, ?_, ?_, ?_⟩
  · rfl
  · rfl
  · exact fun final => final.2 rfl
  · rfl
  · rfl

end AgentRun

end Openheim
