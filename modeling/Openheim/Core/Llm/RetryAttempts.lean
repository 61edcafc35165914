import Openheim.Core.Llm.Retry

/-
This file shows that a streamed reply that is retried is never mixed from several attempts.
-/

namespace Openheim.Llm

namespace RetryState
variable {timeoutOrConnect : String → Bool} {s t : RetryState}

/-- What one step may be. -/
inductive Move (timeoutOrConnect : String → Bool) (s : RetryState) : RetryState → Prop where
  | send (chunk : LlmChunk) (running : s.phase = .calling) : Move timeoutOrConnect s { s with
      sent := s.sent ++ [chunk], channel := if s.forwarding then s.channel ++ [chunk]
        else s.channel }
  | answer (result : Except Error Choice) (running : s.phase = .calling) :
      Move timeoutOrConnect s { s with phase := .joining result }
  | forward {chunk : LlmChunk} {rest : List LlmChunk} (runs : s.forwarding = true)
      (waiting : s.channel = chunk :: rest) :
      Move timeoutOrConnect s (s.forward chunk rest)
  | drained {result : Except Error Choice} (joins : s.phase = .joining result)
      (runs : s.forwarding = true)
      (empty : s.channel = []) : Move timeoutOrConnect s { s with forwarding := false }
  | resolve {result : Except Error Choice} (joins : s.phase = .joining result)
      (ended : s.forwarding = false) :
      Move timeoutOrConnect s (s.resolve timeoutOrConnect result)
  | wake (sleeps : s.phase = .sleeping) : Move timeoutOrConnect s s.nextAttempt
  | hangUp : Move timeoutOrConnect s { s with listening := false }

/-- Every action is one of the moves. -/
theorem move_of_step {action : RetryAction} (stepped : s.step timeoutOrConnect action = some t) :
    Move timeoutOrConnect s t := by
  cases action with
  | send chunk =>
      simp only [step] at stepped
      split at stepped
      · next running => cases stepped; exact .send chunk running
      · cases stepped
  | answer result =>
      simp only [step] at stepped
      split at stepped
      · next running => cases stepped; exact .answer result running
      · cases stepped
  | forward =>
      simp only [step] at stepped
      split at stepped
      · next runs waiting => cases stepped; exact .forward runs waiting
      · cases stepped
  | drained =>
      simp only [step] at stepped
      split at stepped
      · next joins runs empty => cases stepped; exact .drained joins runs empty
      · cases stepped
  | resolve =>
      simp only [step] at stepped
      split at stepped
      · next joins ended => cases stepped; exact .resolve joins ended
      · cases stepped
  | wake =>
      simp only [step] at stepped
      split at stepped
      · next sleeps => cases stepped; exact .wake sleeps
      · cases stepped
  | hangUp => cases stepped; exact .hangUp

/-- The forwarder has passed on what it took from the channel, and notes it. If it is over before
the inner call, the caller had stopped listening. -/
structure Flows (s : RetryState) : Prop where
  running : s.forwarding = true → s.forwarded ++ s.channel = s.sent
  begun : s.forwarded <+: s.sent
  whole : s.forwarding = false → s.listening = true → s.forwarded = s.sent
  noted : s.forwarded ≠ [] → s.emitted = true
  ended : s.forwarding = false → s.sent ≠ [] → s.emitted = true
  early : s.forwarding = false → s.phase = .calling → s.listening = false ∧ s.emitted = true
  between : s.phase = .sleeping → s.sent = []
  after : ∀ result, s.phase = .finished result → s.forwarding = false

theorem Flows.new : Flows .new :=
  ⟨fun _ => rfl, List.prefix_rfl, nofun, fun some => absurd rfl some, nofun, nofun, nofun, nofun⟩

/-- An attempt is repeated after an error that allows it, while nothing was emitted. -/
theorem retries_iff {result : Except Error Choice} : s.retries timeoutOrConnect result = true ↔
    ∃ error, result = .error error ∧ s.attempt < maxRetries ∧
      error.isRetryable timeoutOrConnect = true ∧
      s.emitted = false := by
  cases result with
  | ok choice => simp [retries]
  | error error => simp [retries]

/-- Every move forwards what is sent. -/
theorem Flows.move (flows : Flows s) (move : Move timeoutOrConnect s t) : Flows t := by
  cases move with
  | send chunk running =>
      refine ⟨fun runs => ?_, flows.begun.trans (List.prefix_append _ _), fun stopped listens => ?_,
        flows.noted, fun stopped _ => (flows.early stopped running).2, flows.early, fun sleeps =>
          ?_, flows.after⟩
      · dsimp only at runs ⊢
        rw [if_pos runs, ← List.append_assoc, flows.running runs]
      · exact absurd ((flows.early stopped running).1) (by simpa using listens)
      · cases running.symm.trans sleeps
  | answer result running =>
      exact ⟨flows.running, flows.begun, flows.whole, flows.noted, flows.ended, nofun, nofun, nofun⟩
  | @forward chunk rest runs waiting =>
      have taken := flows.running runs
      have unfinished : ∀ result, s.phase ≠ .finished result := by
        intro result stopped
        cases runs.symm.trans (flows.after result stopped)
      rw [waiting] at taken
      unfold RetryState.forward
      split
      · next listens =>
        refine ⟨fun _ => ?_, ?_, fun stopped _ => ?_, fun _ => rfl, fun _ _ => rfl,
          fun stopped _ => ?_, flows.between, fun result stopped =>
            absurd stopped (unfinished result)⟩
        · rw [← taken, List.append_assoc]
          rfl
        · exact ⟨rest, by rw [← taken, List.append_assoc]; rfl⟩
        · cases runs.symm.trans stopped
        · cases runs.symm.trans stopped
      · next deaf =>
        exact ⟨nofun, flows.begun, fun _ listens => absurd listens deaf, fun _ => rfl,
          fun _ _ => rfl, fun _ _ => ⟨by simpa using deaf, rfl⟩, flows.between, fun _ _ => rfl⟩
  | drained joins runs empty =>
      have all := flows.running runs
      rw [empty, List.append_nil] at all
      refine ⟨nofun, flows.begun, fun _ _ => all, flows.noted,
        fun _ some => flows.noted (all ▸ some), fun _ running => ?_,
        flows.between, fun _ _ => rfl⟩
      cases joins.symm.trans running
  | @resolve result joins stopped =>
      refine ⟨flows.running, flows.begun, flows.whole, flows.noted, flows.ended,
        fun _ running => ?_, fun sleeps => ?_, fun _ _ => stopped⟩
      · dsimp only [RetryState.resolve] at running
        split at running <;> cases running
      · dsimp only [RetryState.resolve] at sleeps
        split at sleeps
        · next again =>
          obtain ⟨_, _, _, _, silent⟩ := retries_iff.mp again
          by_contra some
          cases silent.symm.trans (flows.ended stopped some)
        · cases sleeps
  | wake sleeps =>
      have none : s.forwarded = [] := List.prefix_nil.mp (flows.between sleeps ▸ flows.begun)
      refine ⟨fun _ => ?_, ?_, nofun, fun some => absurd none some, nofun, nofun, nofun, nofun⟩
      · simp [nextAttempt, none]
      · simp [nextAttempt, none]
  | hangUp =>
      exact ⟨flows.running, flows.begun, nofun, flows.noted, flows.ended,
        fun stopped running => ⟨rfl, (flows.early stopped running).2⟩, flows.between, flows.after⟩

/-- An attempt that is followed by another one failed without a chunk and with an
error that may not occur again. -/
def GaveUp (timeoutOrConnect : String → Bool) (attempt : Attempt) : Prop :=
  attempt.chunks = [] ∧ ∃ error, attempt.result = .error error ∧
    error.isRetryable timeoutOrConnect = true

/-- The attempts so far: all that are followed by another one were given up, and
the last one has the result. -/
def Counts (timeoutOrConnect : String → Bool) (s : RetryState) : Prop :=
  s.attempt ≤ maxRetries ∧ ∃ earlier : List Attempt,
    (∀ attempt ∈ earlier, GaveUp timeoutOrConnect attempt) ∧
    match s.phase with
    | .calling | .joining _ => s.tried = earlier ∧ earlier.length = s.attempt
    | .sleeping => s.tried = earlier ∧ earlier.length = s.attempt + 1 ∧ s.attempt < maxRetries
    | .finished result => s.tried = earlier ++ [⟨s.sent, result⟩] ∧ earlier.length = s.attempt

/-- Every move counts its attempt. -/
theorem Counts.move (counts : Counts timeoutOrConnect s) (flows : Flows s)
    (move : Move timeoutOrConnect s t) :
    Counts timeoutOrConnect t := by
  obtain ⟨few, earlier, gaveUp, phase⟩ := counts
  cases move with
  | send chunk running =>
      rw [running] at phase
      refine ⟨few, earlier, gaveUp, ?_⟩
      dsimp only
      rw [running]
      exact phase
  | answer result running =>
      rw [running] at phase
      exact ⟨few, earlier, gaveUp, phase⟩
  | forward runs waiting =>
      unfold RetryState.forward
      split
      · exact ⟨few, earlier, gaveUp, phase⟩
      · exact ⟨few, earlier, gaveUp, phase⟩
  | drained joins runs empty => exact ⟨few, earlier, gaveUp, phase⟩
  | @resolve result joins stopped =>
      rw [joins] at phase
      obtain ⟨same, count⟩ := phase
      by_cases again : s.retries timeoutOrConnect result = true
      · obtain ⟨error, failed, more, retryable, silent⟩ := retries_iff.mp again
        have none : s.sent = [] := by
          by_contra some
          cases silent.symm.trans (flows.ended stopped some)
        refine ⟨few, earlier ++ [⟨s.sent, result⟩], ?_, ?_⟩
        · intro attempt member
          rcases List.mem_append.mp member with old | new
          · exact gaveUp attempt old
          · rw [List.mem_singleton.mp new]
            exact ⟨none, error, failed, retryable⟩
        · simp only [RetryState.resolve, if_pos again]
          exact ⟨by rw [same], by rw [List.length_append, count]; rfl, more⟩
      · refine ⟨few, earlier, gaveUp, ?_⟩
        simp only [RetryState.resolve, if_neg again]
        exact ⟨by rw [same], count⟩
  | wake sleeps =>
      rw [sleeps] at phase
      exact ⟨phase.2.2, earlier, gaveUp, phase.1, phase.2.1⟩
  | hangUp => exact ⟨few, earlier, gaveUp, phase⟩

/-- In every run the chunks flow and the attempts are counted. -/
theorem sound_of_reachable (reached : (retryMachine timeoutOrConnect).Reachable s) :
    Flows s ∧ Counts timeoutOrConnect s := by
  refine @Machine.ReachableUnder.invariant _ _ (retryMachine timeoutOrConnect) Machine.free
    (fun s => Flows s ∧ Counts timeoutOrConnect s) s reached (fun s started => ?_)
      fun s action t before _ stepped => ?_
  · rw [show s = .new from started]
    exact ⟨Flows.new, Nat.zero_le _, [], nofun, rfl, rfl⟩
  · have move := move_of_step stepped
    exact ⟨before.1.move move, before.2.move before.1 move⟩

end RetryState

/-- The chunks that were passed on are those of the attempt whose result is returned, all of
them as long as the caller listens. There is at most one attempt more than there are
retries, and each attempt that is followed by another one failed with an error that may not
occur again and without a chunk. -/
theorem attempts_never_mix (timeoutOrConnect : String → Bool) (s : RetryState)
    (reached : (retryMachine timeoutOrConnect).Reachable s) :
    ∃ earlier : List Attempt, (∀ attempt ∈ earlier, RetryState.GaveUp timeoutOrConnect attempt) ∧
      s.tried.length ≤ maxRetries + 1 ∧ s.attempt ≤ maxRetries ∧ s.forwarded <+: s.sent ∧
      match s.phase with
      | .finished result => s.tried = earlier ++ [⟨s.sent, result⟩] ∧
          (s.listening = true → s.forwarded = s.sent)
      | _ => s.tried = earlier := by
  obtain ⟨flows, few, earlier, gaveUp, phase⟩ := RetryState.sound_of_reachable reached
  cases current : s.phase with
  | calling =>
      rw [current] at phase
      exact ⟨earlier, gaveUp, by rw [phase.1, phase.2]; omega, few, flows.begun, phase.1⟩
  | joining result =>
      rw [current] at phase
      exact ⟨earlier, gaveUp, by rw [phase.1, phase.2]; omega, few, flows.begun, phase.1⟩
  | sleeping =>
      rw [current] at phase
      exact ⟨earlier, gaveUp, by rw [phase.1, phase.2.1]; omega, few, flows.begun, phase.1⟩
  | finished result =>
      rw [current] at phase
      refine ⟨earlier, gaveUp, ?_, few, flows.begun, phase.1,
        flows.whole (flows.after result current)⟩
      rw [phase.1, List.length_append, phase.2]
      exact Nat.succ_le_succ few

/-- A cut stream is repeated, and the second attempt is passed on. -/
def secondAttempt : List RetryAction :=
  [.answer (.error (.incompleteResponse "cut")), .drained, .resolve, .wake,
    .send (.text "a"), .forward, .send (.text "b"),
      .answer (.ok ⟨.ofAssistant "ab", some .stop, none⟩), .forward, .drained, .resolve]

/-- The first attempt is cut before it sends, and the chunks of the second one are forwarded. -/
theorem attempts_never_mix_sample :
    ∃ s, (retryMachine fun _ => false).exec .new secondAttempt = some s ∧ s.tried.length = 2 ∧
      s.forwarded = [.text "a", .text "b"] ∧ s.forwarded <+: s.sent := by
  obtain ⟨s, ran, count, forwarded⟩ : ∃ s,
      (retryMachine fun _ => false).exec .new secondAttempt = some s ∧
      s.tried.length = 2 ∧ s.forwarded = [.text "a", .text "b"] := ⟨_, rfl, rfl, rfl⟩
  obtain ⟨_, _, _, _, begun, _⟩ :=
    attempts_never_mix (fun _ => false) s (Machine.reachable_of_exec rfl ran)
  exact ⟨s, ran, count, forwarded, begun⟩

end Openheim.Llm
