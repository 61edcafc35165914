import Mathlib.Algebra.BigOperators.Group.List.Basic
import Openheim.Core.RunEnd
import Openheim.Library.Progress

/-
This file shows that `run_agent` returns: it is never stuck, and only streamed pieces of a reply can
keep it going.
-/

namespace Openheim

/-- The steps that a call still has to take. -/
def Progress.left : Progress → Nat
  | .waiting => 2
  | .executing => 1
  | .finished _ _ => 0

/-- What is left of the iteration that the loop is in. -/
def Phase.left : Phase → ℕ × ℕ
  | .iterating _ => (6, 0)
  | .sending _ retries _ => (5, maxOverflowRetries - retries)
  | .announced _ _ => (4, 0)
  | .deciding _ _ decisions => (3, decisions.count .pending)
  | .executing _ _ _ progress => (2, (progress.map Progress.left).sum)
  | .recorded _ => (1, 0)
  | .returned _ => (0, 0)

/-- The iterations that are left of so many. -/
def Phase.iterationsLeft (limit : Nat) : Phase → ℕ
  | .iterating iteration | .sending iteration _ _ | .announced iteration _ | .deciding iteration _ _
  | .executing iteration _ _ _ | .recorded iteration => limit - iteration
  | .returned _ => 0

/-- Iterations come first, then the stages of one, then the steps of a stage. -/
def Phase.rank (limit : Nat) (phase : Phase) : ℕ ×ₗ ℕ ×ₗ ℕ :=
  toLex (phase.iterationsLeft limit, toLex phase.left)

/-- An iteration is one of those allowed, and each of its calls has
its decision and its progress. -/
def Phase.Fits (limit : Nat) : Phase → Prop
  | .iterating _ | .returned _ => True
  | .sending iteration retries _ => iteration < limit ∧ retries ≤ maxOverflowRetries
  | .announced iteration _ | .recorded iteration => iteration < limit
  | .deciding iteration choice decisions => iteration < limit ∧
      decisions.length = choice.message.toolCalls.length
  | .executing iteration choice decisions progress =>
      iteration < limit ∧ decisions.length = choice.message.toolCalls.length ∧
        progress.length = choice.message.toolCalls.length ∧ .pending ∉ decisions

/-- A phase that fits, with less left to do. -/
def Phase.Lowers (limit : Nat) (old new : Phase) : Prop :=
  new.Fits limit ∧ new.rank limit < old.rank limit

/-- The action does not move the loop on. -/
def AgentAction.waits : AgentAction → Bool
  | .cancel | .chunk _ => true
  | _ => false

section Ranks
variable {limit iteration : Nat} {old new : Phase}

/-- A later stage of the same iteration. -/
theorem Phase.rank_lt_of_left (same : new.iterationsLeft limit ≤ old.iterationsLeft limit)
    (less : toLex new.left < toLex old.left) : new.rank limit < old.rank limit := by
  rw [Phase.rank, Phase.rank, Prod.Lex.toLex_lt_toLex]
  exact (Nat.lt_or_eq_of_le same).imp_right fun equal => ⟨equal, less⟩

/-- A phase with fewer iterations left ranks lower. -/
theorem Phase.rank_lt_of_iterations (less : new.iterationsLeft limit < old.iterationsLeft limit) :
    new.rank limit < old.rank limit := by
  rw [Phase.rank, Phase.rank, Prod.Lex.toLex_lt_toLex]
  exact .inl less

theorem Phase.left_lt_of_stage {first second : ℕ × ℕ} (less : first.1 < second.1) :
    toLex first < toLex second :=
  Prod.Lex.toLex_lt_toLex.mpr (.inl less)

theorem Phase.left_lt_of_steps {stage first second : ℕ} (less : first < second) :
    toLex (stage, first) < toLex (stage, second) := Prod.Lex.toLex_lt_toLex.mpr (.inr ⟨rfl, less⟩)

/-- A loop that returns has nothing left to do. -/
theorem Phase.Lowers.returned (inside : ∀ result, old ≠ .returned result)
    (result : Except Error AgentResult) :
    Phase.Lowers limit old (.returned result) := by
  refine ⟨trivial, Phase.rank_lt_of_left (Nat.zero_le _) (Phase.left_lt_of_stage ?_)⟩
  cases old with
  | returned other => exact absurd rfl (inside other)
  | _ => exact Nat.succ_pos _

/-- The loop goes on to the next iteration. -/
theorem Phase.Lowers.iterate (below : iteration < limit)
    (stands : old.iterationsLeft limit = limit - iteration) :
    Phase.Lowers limit old (.iterating (iteration + 1)) := by
  refine ⟨trivial, Phase.rank_lt_of_iterations ?_⟩
  rw [stands, Phase.iterationsLeft]
  omega

/-- A call that comes further leaves less to do. -/
theorem sum_left_set {progress : List Progress} {index : Nat} {before after : Progress}
    (found : progress[index]? = some before) (less : after.left < before.left) :
    ((progress.set index after).map Progress.left).sum < (progress.map Progress.left).sum := by
  induction progress generalizing index with
  | nil => cases found
  | cons first rest ih =>
      cases index with
      | zero =>
          cases found
          simpa using less
      | succ index => simpa using ih (by simpa using found)

/-- A decision leaves one fewer to wait for. -/
theorem count_pending_set {decisions : List Decision} {index : Nat} {decision : PermissionDecision}
    (found : decisions[index]? = some .pending) :
    (decisions.set index (.decided decision)).count .pending < decisions.count .pending := by
  induction decisions generalizing index with
  | nil => cases found
  | cons first rest ih =>
      cases index with
      | zero =>
          cases found
          simp
      | succ index =>
          have later : rest[index]? = some .pending := by simpa using found
          have less := ih later
          rw [List.set_cons_succ, List.count_cons, List.count_cons]
          omega

end Ranks

namespace AgentRun

section Steps
variable {json : SerdeJson} {run after : AgentRun} {action : AgentAction} {limit iteration : Nat}

/-- No step changes the configuration. -/
theorem step_config (stepped : run.step json action = some after) : after.config = run.config := by
  cases step_end stepped with
  | cancel _ same => rw [same]
  | begin _ _ _ goesOn => exact goesOn.config
  | stay goesOn => exact goesOn.config
  | fail goesOn => exact goesOn.config
  | finish _ goesOn _ _ _ ends =>
      rw [ends]
      exact goesOn.config

/-- A request is sent in its iteration. -/
theorem lowers_send {old : Phase} {retries : Nat} (below : iteration < limit)
    (within : retries ≤ maxOverflowRetries) (stands : old.iterationsLeft limit = limit - iteration)
    (less : toLex (5, maxOverflowRetries - retries) < toLex old.left) :
    old.Lowers limit (run.send iteration retries).phase := by
  obtain ⟨request, sent⟩ := send_phase run iteration retries
  rw [sent]
  exact ⟨⟨below, within⟩, Phase.rank_lt_of_left stands.ge less⟩

/-- What the loop does by itself lowers the rank. -/
theorem lowers_proceed (fits : run.phase.Fits limit) (same : limit = run.config.maxIterations)
    (stepped : run.proceed json = some after) : run.phase.Lowers limit after.phase := by
  unfold AgentRun.proceed at stepped
  split at stepped
  · next iteration phase =>
    rw [phase]
    split at stepped
    · cases stepped
      exact .returned (by simp) _
    · next allowed =>
      split at stepped
      · cases stepped
        exact .returned (by simp) _
      · cases stepped
        exact lowers_send (by omega) (Nat.zero_le _) rfl
          (Phase.left_lt_of_stage (show 5 < 6 by decide))
  · next iteration choice phase =>
    rw [phase] at fits ⊢
    split at stepped
    · cases stepped
      exact ⟨fits, Phase.rank_lt_of_left le_rfl (Phase.left_lt_of_stage (show 1 < 4 by decide))⟩
    · cases stepped
      exact ⟨⟨fits, List.length_map _⟩,
        Phase.rank_lt_of_left le_rfl (Phase.left_lt_of_stage (show 3 < 4 by decide))⟩
  · next iteration choice decisions phase =>
    rw [phase] at fits ⊢
    split at stepped
    · cases stepped
    · next settled =>
      cases stepped
      refine ⟨⟨fits.1, fits.2, ?_, settled⟩,
        Phase.rank_lt_of_left le_rfl (Phase.left_lt_of_stage (show 2 < 3 by decide))⟩
      rw [List.length_map, fits.2]
  · next iteration choice decisions progress phase =>
    rw [phase] at fits ⊢
    split at stepped
    · cases stepped
      exact ⟨fits.1, Phase.rank_lt_of_left le_rfl (Phase.left_lt_of_stage (show 1 < 2 by decide))⟩
    · cases stepped
  · next iteration phase =>
    rw [phase] at fits ⊢
    split at stepped
    · cases stepped
      exact .returned (by simp) _
    · cases stepped
      exact .iterate fits rfl
  · cases stepped

/-- A reply lowers the rank. -/
theorem lowers_accept {retries : Nat} {request : Request} (choice : Reply)
    (below : iteration < limit) :
    Phase.Lowers limit (.sending iteration retries request)
      (run.accept iteration request choice).phase := by
  unfold AgentRun.accept
  dsimp only
  split
  · split
    · exact .iterate below rfl
    · exact .returned (by simp) _
  · exact ⟨below, Phase.rank_lt_of_left le_rfl (Phase.left_lt_of_stage (show 4 < 5 by decide))⟩

/-- A failed request lowers the rank. -/
theorem lowers_reject {retries : Nat} {request : Request} (error : Error)
    (below : iteration < limit) (within : retries ≤ maxOverflowRetries) :
    Phase.Lowers limit (.sending iteration retries request)
      (run.reject iteration retries request error).phase := by
  unfold AgentRun.reject
  split
  · split
    · exact .returned (by simp) _
    · next more =>
      split
      · exact .returned (by simp) _
      · exact lowers_send below (by omega) rfl (Phase.left_lt_of_steps (by omega))
  · exact .returned (by simp) _

/-- A call that completes lowers the rank. -/
theorem lowers_complete {index : Nat} {result : Except String String} (fits : run.phase.Fits limit)
    (stepped : run.complete index result = some after) : run.phase.Lowers limit after.phase := by
  unfold AgentRun.complete at stepped
  split at stepped
  · next iteration choice decisions progress phase =>
    rw [phase] at fits ⊢
    have finishes {text : String} {isError : Bool} {before : Progress}
        (found : progress[index]? = some before)
        (open_ : 0 < before.left) :
        Phase.Lowers limit (.executing iteration choice decisions progress)
          (.executing iteration choice decisions
              (progress.set index (.finished text isError))) := by
      refine ⟨⟨fits.1, fits.2.1, ?_, fits.2.2.2⟩,
        Phase.rank_lt_of_left le_rfl (Phase.left_lt_of_steps ?_)⟩
      · rw [List.length_set]
        exact fits.2.2.1
      · exact sum_left_set found open_
    split at stepped
    · next found =>
      obtain ⟨text, _, rfl⟩ := Option.map_eq_some_iff.mp stepped
      exact finishes found (by decide)
    · next found =>
      split at stepped <;> cases stepped <;> exact finishes found (by decide)
    · cases stepped
  · cases stepped

/-- Every step but a cancel and a piece of a reply leaves less to do. -/
theorem lowers_step (fits : run.phase.Fits limit) (same : limit = run.config.maxIterations)
    (stepped : run.step json action = some after) :
    action.waits = true ∧ after.phase = run.phase ∨ run.phase.Lowers limit after.phase := by
  cases action with
  | cancel =>
      cases stepped
      exact .inl ⟨rfl, rfl⟩
  | proceed => exact .inr (lowers_proceed fits same stepped)
  | chunk chunk =>
      simp only [AgentRun.step] at stepped
      split at stepped
      · cases stepped
        exact .inl ⟨rfl, rfl⟩
      · cases stepped
  | reply reply =>
      simp only [AgentRun.step] at stepped
      split at stepped
      · next phase =>
        cases stepped
        rw [phase] at fits ⊢
        exact .inr (lowers_accept _ fits.1)
      · next phase =>
        cases stepped
        rw [phase] at fits ⊢
        exact .inr (lowers_reject _ fits.1 fits.2)
      · cases stepped
  | decide index decision =>
      obtain ⟨iteration, choice, decisions, phase, pending, next⟩ := decide_eq stepped
      rw [phase] at fits ⊢
      rw [next]
      refine .inr ⟨⟨fits.1, ?_⟩,
        Phase.rank_lt_of_left le_rfl (Phase.left_lt_of_steps (count_pending_set pending))⟩
      rw [List.length_set, fits.2]
  | execute index =>
      have stepped : run.execute index = some after := stepped
      unfold AgentRun.execute at stepped
      split at stepped
      · next iteration choice decisions progress phase =>
        rw [phase] at fits ⊢
        split at stepped
        · next found =>
          split at stepped
          · cases stepped
            refine .inr ⟨⟨fits.1, fits.2.1, ?_, fits.2.2.2⟩,
              Phase.rank_lt_of_left le_rfl (Phase.left_lt_of_steps ?_)⟩
            · rw [List.length_set]
              exact fits.2.2.1
            · exact sum_left_set found (by decide)
          · cases stepped
        · cases stepped
      · cases stepped
  | complete index result => exact .inr (lowers_complete fits stepped)
  | observeCancel =>
      have stepped : run.observeCancel = some after := stepped
      unfold AgentRun.observeCancel at stepped
      split at stepped
      · split at stepped
        · next phase =>
          cases stepped
          rw [phase]
          exact .inr (.returned (by simp) _)
        · next phase =>
          cases stepped
          rw [phase] at fits ⊢
          exact .inr ⟨fits.1,
            Phase.rank_lt_of_left le_rfl (Phase.left_lt_of_stage (show 1 < 3 by decide))⟩
        · next phase =>
          cases stepped
          rw [phase] at fits ⊢
          exact .inr ⟨fits.1,
            Phase.rank_lt_of_left le_rfl (Phase.left_lt_of_stage (show 1 < 2 by decide))⟩
        · cases stepped
      · cases stepped

/-- A call that has its decision and is not finished can be asked for or be finished. -/
theorem can_complete {choice : Reply} {decisions : List Decision} {progress : List Progress}
    {index : Nat}
    {call : Progress} (stands : run.phase = .executing iteration choice decisions progress)
    (fits : run.phase.Fits limit) (found : progress[index]? = some call)
    (open_ : call.outcome = none) :
    (run.execute index).isSome ∨ (run.complete index (.ok "")).isSome := by
  rw [stands] at fits
  have inside : index < choice.message.toolCalls.length :=
    fits.2.2.1 ▸ (List.getElem?_eq_some_iff.mp found).1
  have called := List.getElem?_eq_getElem inside
  obtain ⟨decision, decided⟩ : ∃ decision, decisions[index]? = some decision :=
    ⟨_, List.getElem?_eq_getElem (fits.2.1.symm ▸ inside)⟩
  rw [AgentRun.execute, AgentRun.complete, stands]
  simp only [called, decided, found]
  cases call with
  | finished => cases open_
  | executing => exact .inr rfl
  | waiting =>
      cases decision with
      | pending => exact absurd (List.mem_of_getElem? decided) fits.2.2.2
      | malformed => exact .inr rfl
      | decided decision =>
          cases allowed : decision.isAllowed with
          | true => exact .inl (by simp [allowed])
          | false => exact .inr (by simp [refusal, allowed])

/-- A loop that has not returned can go on. -/
theorem can_step (json : SerdeJson) (fits : run.phase.Fits limit)
    (inside : ∀ result, run.phase ≠ .returned result) :
    ∃ action, action.waits = false ∧ (run.step json action).isSome := by
  cases phase : run.phase with
  | iterating iteration =>
      refine ⟨.proceed, rfl, ?_⟩
      simp only [AgentRun.step, AgentRun.proceed, phase]
      split
      · rfl
      · split <;> rfl
  | sending iteration retries request =>
      refine ⟨.reply (.error (.contextOverflow "")), rfl, ?_⟩
      simp only [AgentRun.step, phase]
      rfl
  | announced iteration choice =>
      refine ⟨.proceed, rfl, ?_⟩
      simp only [AgentRun.step, AgentRun.proceed, phase]
      split <;> rfl
  | deciding iteration choice decisions =>
      by_cases pending : Decision.pending ∈ decisions
      · obtain ⟨index, found⟩ := List.mem_iff_getElem?.mp pending
        refine ⟨.decide index .allowOnce, rfl, ?_⟩
        simp only [AgentRun.step, AgentRun.decide, phase, if_pos found]
        rfl
      · refine ⟨.proceed, rfl, ?_⟩
        simp only [AgentRun.step, AgentRun.proceed, phase, if_neg pending]
        rfl
  | executing iteration choice decisions progress =>
      by_cases settled : (progress.all fun call => call.outcome.isSome) = true
      · refine ⟨.proceed, rfl, ?_⟩
        simp only [AgentRun.step, AgentRun.proceed, phase, if_pos settled]
        rfl
      · simp only [List.all_eq_true, not_forall, Option.not_isSome_iff_eq_none] at settled
        obtain ⟨call, member, open_⟩ := settled
        obtain ⟨index, found⟩ := List.mem_iff_getElem?.mp member
        rcases can_complete phase fits found open_ with executes | completes
        · exact ⟨.execute index, rfl, executes⟩
        · exact ⟨.complete index (.ok ""), rfl, completes⟩
  | recorded iteration =>
      refine ⟨.proceed, rfl, ?_⟩
      simp only [AgentRun.step, AgentRun.proceed, phase]
      split <;> rfl
  | returned result => exact absurd phase (inside result)

/-- The run is in one of the iterations that are allowed. -/
def Fits (run : AgentRun) : Prop := run.phase.Fits run.config.maxIterations

/-- Every step keeps the run within its limits. -/
theorem fits_step (fits : run.Fits) (stepped : run.step json action = some after) : after.Fits := by
  rw [Fits, step_config stepped]
  rcases lowers_step fits rfl stepped with ⟨_, same⟩ | lower
  · rw [same]
    exact fits
  · exact lower.1

/-- Every run stays within its limits. -/
theorem fits_of_reachable {messages : List Message}
    (reached : (agentLoop json messages).Reachable run) : run.Fits :=
  reached.invariant (fun _ ⟨_, _, _, _, same⟩ => same ▸ trivial) fun _ _ _ fits _ stepped =>
    fits_step fits stepped

end Steps

/-- `run_agent` is never stuck before it returns, and no run of it goes on for ever, unless the
model streams a reply without end: whatever the model, the gate and the tools answer, from some
point on nothing else happens. -/
theorem run_agent_returns (json : SerdeJson) (messages : List Message) :
    (∀ run, (agentLoop json messages).Reachable run → (∃ result, run.phase = .returned result) ∨
      ∃ action, action.waits = false ∧ (run.step json action).isSome) ∧
    ∀ runs actions, (agentLoop json messages).Endless runs actions →
      ∃ n, ∀ m, n ≤ m → (actions m).waits = true := by
  refine ⟨fun run reached => ?_, fun runs actions endless => ?_⟩
  · refine or_iff_not_imp_left.mpr fun inside => ?_
    exact can_step json (fits_of_reachable reached) fun result returned => inside ⟨result, returned⟩
  · refine endless.waits (fun run => run.phase.rank run.config.maxIterations)
      (fun action => action.waits = true) ?_
    intro run action after reached stepped
    rw [step_config stepped]
    rcases lowers_step (fits_of_reachable reached) rfl stepped with ⟨waits, same⟩ | lower
    · rw [same]
      exact ⟨le_rfl, .inl waits⟩
    · exact ⟨lower.2.le, .inr lower.2⟩

/-- The run that a cancel token was fired for before it started. -/
def cancelledStart : AgentRun := .start sampleConfig none 0 [] true

/-- A call waits for its permission, and another run gets nothing but cancels. -/
theorem run_agent_returns_sample :
    (∃ run, (agentLoop sampleJson [.ofUser "list"]).exec
          (.start sampleConfig none 0 [.ofUser "list"] false)
        (sampleActions.take 3) = some run ∧ ((∃ result, run.phase = .returned result) ∨
          ∃ action, action.waits = false ∧ (run.step sampleJson action).isSome)) ∧
      ∃ n, ∀ m, n ≤ m → ((fun _ : ℕ => AgentAction.cancel) m).waits = true := by
  obtain ⟨run, executed⟩ : ∃ run, (agentLoop sampleJson [.ofUser "list"]).exec
      (.start sampleConfig none 0 [.ofUser "list"] false) (sampleActions.take 3) =
        some run := ⟨_, rfl⟩
  have started :
      (agentLoop sampleJson [.ofUser "list"]).start
      (.start sampleConfig none 0 [.ofUser "list"] false) :=
    ⟨sampleConfig, none, 0, false, rfl⟩
  have reached := Machine.reachable_of_exec started executed
  refine ⟨⟨run, executed, (run_agent_returns sampleJson [.ofUser "list"]).1 run reached⟩, ?_⟩
  exact (run_agent_returns sampleJson []).2 (fun _ => cancelledStart) _
    ⟨⟨sampleConfig, none, 0, true, rfl⟩, fun _ => rfl⟩

end AgentRun

end Openheim
