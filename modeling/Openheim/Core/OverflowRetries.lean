import Openheim.Core.AgentSteps
import Openheim.Core.ContextTrim

/-
This file shows that a request that was too long is followed by a smaller one or by the end of the
run.
-/

namespace Openheim

namespace ContextFitter
variable {fitter after : ContextFitter} {history : List Message}

/-- `recordOverflow` with three quarters of the size taken on exact integers. -/
def recordOverflowExact (fitter : ContextFitter) (sent : Fitted) (sentBytes : Nat) :
    Option ContextFitter :=
  if sent.exhausted then none
  else
    let limit := 3 * sentBytes / 4
    some { fitter with overflowLimit := some (fitter.overflowLimit.elim limit (min · limit)) }

/-- Both versions agree as long as the scaling of the size does. -/
theorem recordOverflow_eq_exact (sent : Fitted) {sentBytes : Nat}
    (exact_ : (Float.ofNat sentBytes * overflowShrink).toUInt64.toNat = 3 * sentBytes / 4) :
    fitter.recordOverflow sent sentBytes = fitter.recordOverflowExact sent sentBytes := by
  rw [recordOverflow, recordOverflowExact, exact_]

/-- The scaling does not decide whether a smaller request can be built. -/
theorem recordOverflow_eq_none {sent : Fitted} {sentBytes : Nat} :
    fitter.recordOverflow sent sentBytes = none ↔ sent.exhausted = true := by
  unfold recordOverflow
  split
  · next last => simp [last]
  · next more => simp [more]

theorem recordOverflowExact_eq_none {sent : Fitted} {sentBytes : Nat} :
    fitter.recordOverflowExact sent sentBytes = none ↔ sent.exhausted = true := by
  unfold recordOverflowExact
  split
  · next last => simp [last]
  · next more => simp [more]

/-- A recorded overflow lowers the limit, and below three quarters of the rejected size. -/
theorem recordOverflowExact_limit {sent : Fitted} {sentBytes : Nat}
    (recorded : fitter.recordOverflowExact sent sentBytes = some after) :
    ∃ limit, after.maxBytes = some limit ∧ limit ≤ 3 * sentBytes / 4 ∧ ∀ earlier ∈ fitter.maxBytes,
      limit ≤ earlier := by
  unfold recordOverflowExact at recorded
  split at recorded
  · cases recorded
  · cases recorded
    simp only [maxBytes]
    cases fitter.window with
    | none =>
        cases fitter.overflowLimit with
        | none => exact ⟨_, rfl, Nat.le_refl _, by simp⟩
        | some earlier => exact ⟨_, rfl, Nat.min_le_right _ _, by simp⟩
    | some tokens =>
        cases fitter.overflowLimit with
        | none => exact ⟨_, rfl, Nat.min_le_right _ _, by simp⟩
        | some earlier =>
            refine ⟨_, rfl, ?_, ?_⟩
            · exact (Nat.min_le_right _ _).trans (Nat.min_le_right _ _)
            · simp only [Option.map_some, Option.mem_def, Option.some.injEq, Option.elim_some]
              rintro limit rfl
              omega

theorem recordOverflowExact_fixedBytes {sent : Fitted} {sentBytes : Nat}
    (recorded : fitter.recordOverflowExact sent sentBytes = some after) :
    after.fixedBytes = fitter.fixedBytes := by
  unfold recordOverflowExact at recorded
  split at recorded
  · cases recorded
  · cases recorded
    rfl

/-- A history is sent whole, or cut for a limit that the fitter has. -/
theorem fit_cases (fitter : ContextFitter) (history : List Message) :
    (fitter.fit history = ⟨history, 0, latestTurnStart history = 0⟩ ∧
      ∀ limit ∈ fitter.maxBytes, trim history fitter.fixedBytes limit = none) ∨
    ∃ limit ∈ fitter.maxBytes, trim history fitter.fixedBytes limit =
      some (fitter.fit history) := by
  unfold fit
  cases known : fitter.maxBytes with
  | none => exact .inl ⟨rfl, by simp⟩
  | some limit =>
      cases trimmed : trim history fitter.fixedBytes limit with
      | none =>
          refine .inl ⟨by simp [trimmed], ?_⟩
          simpa using trimmed
      | some fitted => exact .inr ⟨limit, rfl, by simp [trimmed]⟩

/-- Nothing smaller can be built exactly when all that comes before the latest turn is left out. -/
theorem fit_exhausted : (fitter.fit history).exhausted = true ↔
    (fitter.fit history).dropped = latestTurnStart history := by
  rcases fitter.fit_cases history with ⟨whole, _⟩ | ⟨limit, _, trimmed⟩
  · rw [whole]
    simp [eq_comm]
  · exact ((trim_optimal history fitter.fixedBytes limit).2.1 _ trimmed).2.2.1

theorem requestBytes_pos (more : (fitter.fit history).exhausted = false) :
    0 < fitter.requestBytes (fitter.fit history).messages := by
  have nonempty : (fitter.fit history).messages ≠ [] := by
    rcases fitter.fit_cases history with ⟨whole, _⟩ | ⟨limit, _, trimmed⟩
    · rw [whole] at more ⊢
      rintro rfl
      simp [latestTurnStart] at more
    · obtain ⟨first, rest, _, kept⟩ :=
        ((trim_optimal history fitter.fixedBytes limit).2.1 _ trimmed).2.1
      rw [kept]
      exact List.cons_ne_nil _ _
  obtain ⟨first, rest, messages⟩ := List.exists_cons_of_ne_nil nonempty
  rw [requestBytes, messages, List.map_cons, List.sum_cons, messageBytes, messageOverheadBytes]
  omega

/-- A request whose history can be cut further is over a limit that is below its size. -/
theorem trim_further {limit : Nat} (more : (fitter.fit history).exhausted = false)
    (below : limit < fitter.requestBytes (fitter.fit history).messages)
    (lower : ∀ earlier ∈ fitter.maxBytes, limit ≤ earlier) :
    ∃ fitted, trim history fitter.fixedBytes limit = some fitted ∧
      (fitter.fit history).dropped < fitted.dropped := by
  have notLatest : (fitter.fit history).dropped ≠ latestTurnStart history := by
    intro latest
    rw [fit_exhausted.mpr latest] at more
    cases more
  rcases fitter.fit_cases history with ⟨whole, _⟩ | ⟨earlier, known, trimmed⟩
  · rw [whole] at below notLatest ⊢
    dsimp only at below notLatest ⊢
    have later : latestTurnStart history ≠ 0 := Ne.symm notLatest
    have large : ¬ (fitter.fixedBytes + (history.map messageBytes).sum ≤ limit ∨
        latestTurnStart history = 0) := by
      rw [requestBytes] at below
      omega
    refine ⟨_, if_neg large, ?_⟩
    exact (cutFrom_optimal later).positive
  · obtain ⟨optimal, ⟨first, rest, begins, kept⟩, _⟩ :=
      (trim_optimal history fitter.fixedBytes earlier).2.1 _ trimmed
    have total : ¬ (fitter.fixedBytes + (history.map messageBytes).sum ≤ limit ∨
        latestTurnStart history = 0) := by
      have large : ¬ (fitter.fixedBytes + (history.map messageBytes).sum ≤ earlier ∨
          latestTurnStart history = 0) := by
        intro whole
        rw [trim, if_pos whole] at trimmed
        cases trimmed
      have lowered := lower earlier known
      omega
    have later : latestTurnStart history ≠ 0 := fun first => total (.inr first)
    refine ⟨_, if_neg total, ?_⟩
    have next : OptimalCut history fitter.fixedBytes limit _ := cutFrom_optimal later
    generalize cutFrom _ _ _ _ _ = cut at next
    dsimp only
    rcases next.fits with fits | latest
    · -- what fits the lower limit fitted the earlier one, so the cut does not go back
      have forward : (fitter.fit history).dropped ≤ cut :=
        optimal.least cut next.positive next.user (Nat.le_trans fits (lower earlier known))
      refine Nat.lt_of_le_of_ne forward fun same => ?_
      have size : fitter.requestBytes (fitter.fit history).messages = fitter.fixedBytes +
          ((history.drop (fitter.fit history).dropped).map messageBytes).sum +
          (omittedNote (fitter.fit history).dropped).utf8ByteSize := by
        have noted :
            ((withNote (fitter.fit history).dropped (first :: rest)).map messageBytes).sum =
            ((first :: rest).map messageBytes).sum +
                (omittedNote (fitter.fit history).dropped).utf8ByteSize :=
          withNote_bytes
        rw [withNote] at noted
        rw [requestBytes, begins, kept]
        omega
      rw [FitsFrom, ← same] at fits
      omega
    · rw [latest]
      exact Nat.lt_of_le_of_ne optimal.notAfterLatest notLatest

/-- After an overflow the same history is cut further. -/
theorem fit_after_overflow
    (recorded : fitter.recordOverflowExact (fitter.fit history)
      (fitter.requestBytes (fitter.fit history).messages) =
      some after) : (fitter.fit history).dropped < (after.fit history).dropped := by
  have more : (fitter.fit history).exhausted = false := by
    rw [← Bool.not_eq_true]
    intro last
    rw [recordOverflowExact_eq_none.mpr last] at recorded
    cases recorded
  obtain ⟨limit, known, scaled, lower⟩ := recordOverflowExact_limit recorded
  have positive := requestBytes_pos more
  obtain ⟨fitted, trimmed, further⟩ := trim_further more (by omega) lower
  have next : after.fit history = fitted := by
    rw [fit, known, recordOverflowExact_fixedBytes recorded, Option.bind_some, trimmed]
    rfl
  rwa [next]

end ContextFitter

/-- A run with the requests of each call of the model; the current ones
are those of the latest call. -/
structure CallTrace where
  run : AgentRun
  earlier : List (List Request)
  current : List Request

/-- An iteration that starts begins a call, and a rejected request may
be followed by another one. -/
def CallTrace.note (trace : CallTrace) (action : AgentAction) (after : AgentRun) : CallTrace :=
  match action, after.phase with
  | .proceed, .sending _ _ request => ⟨after, trace.earlier ++ [trace.current], [request]⟩
  | .reply _, .sending _ _ request => ⟨after, trace.earlier, trace.current ++ [request]⟩
  | _, _ => { trace with run := after }

/-- All runs of `run_agent` with the requests that they sent. -/
def callLoop (json : SerdeJson) (messages : List Message) : Machine CallTrace AgentAction where
  start s := (agentLoop json messages).start s.run ∧ s.earlier = [] ∧ s.current = []
  step s action := (s.run.step json action).map (s.note action)

def isSending : Phase → Bool
  | .sending _ _ _ => true
  | _ => false

/-- The run ended with a request that was too long. -/
def overflowed : Phase → Bool
  | .returned (.error (.contextOverflow _)) => true
  | _ => false

namespace AgentRun
variable {run after : AgentRun} {json : SerdeJson} {action : AgentAction}

/-- The request that is sent for the messages so far. -/
def prepared (run : AgentRun) : Request := prepareRequest run.messages run.promptBuilder run.fitter

/-- What a step does to the requests of the current call. -/
inductive CallStep (run after : AgentRun) (action : AgentAction) : Prop where
  | begin (iteration : Nat) (proceeds : action = .proceed)
      (sends : after.phase = .sending iteration 0 after.prepared)
  | retry (iteration retries : Nat) (request : Request) (reply : Except Error Reply)
      (replied : action = .reply reply)
      (before : run.phase = .sending iteration retries request)
      (below : retries ≠ maxOverflowRetries)
      (sends : after.phase = .sending iteration (retries + 1) after.prepared)
  | stay (same : after.phase = run.phase) (built : after.prepared = run.prepared)
      (aside : action ≠ .proceed)
      (silent : ∀ reply, action ≠ .reply reply)
  | fail (iteration retries : Nat) (request : Request)
      (before : run.phase = .sending iteration retries request)
      (built : after.prepared = run.prepared) (gone : isSending after.phase = false)
      (last : retries = maxOverflowRetries ∨ request.fitted.exhausted = true)
  | leave (gone : isSending after.phase = false) (fine : overflowed after.phase = false)

theorem send_prepared (run : AgentRun) (iteration overflowRetries : Nat) :
    (run.send iteration overflowRetries).phase =
      .sending iteration overflowRetries (run.send iteration overflowRetries).prepared := by
  unfold AgentRun.send
  dsimp only
  split
  · rfl
  · rfl

theorem callStep_accept (iteration : Nat) (request : Request) (choice : Reply) :
    CallStep run (run.accept iteration request choice) action := by
  unfold AgentRun.accept
  dsimp only
  split
  · split
    · exact .leave rfl rfl
    · exact .leave rfl rfl
  · exact .leave rfl rfl

theorem callStep_reject {iteration retries : Nat} {request : Request} {error : Error}
    (before : run.phase = .sending iteration retries request) :
    CallStep run (run.reject iteration retries request error) (.reply (.error error)) := by
  unfold AgentRun.reject
  split
  · split
    · next last => exact .fail iteration retries request before rfl rfl (.inl last)
    · next below =>
      split
      · next nothing =>
        exact .fail iteration retries request before rfl rfl
          (.inr (ContextFitter.recordOverflow_eq_none.mp nothing))
      · exact .retry iteration retries request _ rfl before below (send_prepared _ _ _)
  · next other =>
    refine .leave rfl ?_
    cases error with
    | contextOverflow message => exact absurd rfl (other message)
    | _ => rfl

theorem callStep_proceed (stepped : run.proceed json = some after) :
    CallStep run after .proceed := by
  unfold AgentRun.proceed at stepped
  split at stepped
  · next iteration phase =>
    split at stepped
    · cases stepped
      exact .leave rfl rfl
    · split at stepped
      · cases stepped
        exact .leave rfl rfl
      · cases stepped
        exact .begin iteration rfl (send_prepared _ _ _)
  · split at stepped
    · cases stepped
      exact .leave rfl rfl
    · cases stepped
      exact .leave rfl rfl
  · split at stepped
    · cases stepped
    · cases stepped
      exact .leave rfl rfl
  · split at stepped
    · cases stepped
      exact .leave rfl rfl
    · cases stepped
  · split at stepped
    · cases stepped
      exact .leave rfl rfl
    · cases stepped
      exact .leave rfl rfl
  · cases stepped

/-- Every step of the loop, seen by the requests that it sends. -/
theorem step_calls (stepped : run.step json action = some after) : CallStep run after action := by
  cases action with
  | cancel =>
      cases stepped
      exact .stay rfl rfl (by simp) (by simp)
  | proceed => exact callStep_proceed stepped
  | chunk chunk =>
      simp only [AgentRun.step] at stepped
      split at stepped
      · cases stepped
        exact .stay rfl rfl (by simp) (by simp)
      · cases stepped
  | reply reply =>
      simp only [AgentRun.step] at stepped
      split at stepped
      · cases stepped
        exact callStep_accept _ _ _
      · next phase =>
        cases stepped
        exact callStep_reject phase
      · cases stepped
  | decide index decision =>
      obtain ⟨iteration, choice, decisions, _, _, phase⟩ := decide_eq stepped
      exact .leave (by rw [phase]; rfl) (by rw [phase]; rfl)
  | execute index =>
      obtain ⟨iteration, choice, decisions, progress, decision, _, _, _, phase⟩ :=
        execute_eq stepped
      exact .leave (by rw [phase]; rfl) (by rw [phase]; rfl)
  | complete index result =>
      simp only [AgentRun.step] at stepped
      unfold AgentRun.complete at stepped
      split at stepped
      · split at stepped
        · obtain ⟨text, _, rfl⟩ := Option.map_eq_some_iff.mp stepped
          exact .leave rfl rfl
        · split at stepped
          · cases stepped
            exact .leave rfl rfl
          · cases stepped
            exact .leave rfl rfl
        · cases stepped
      · cases stepped
  | observeCancel =>
      simp only [AgentRun.step] at stepped
      unfold AgentRun.observeCancel at stepped
      split at stepped
      · split at stepped
        · cases stepped
          exact .leave rfl rfl
        · cases stepped
          exact .leave rfl rfl
        · cases stepped
          exact .leave rfl rfl
        · cases stepped
      · cases stepped

end AgentRun

/-- The requests of each call stay within the retries, and a run that ended with a request that was
too long has no smaller one or no retry left. -/
structure CallsBounded (s : CallTrace) : Prop where
  earlier : ∀ call ∈ s.earlier, call.length ≤ maxOverflowRetries + 1
  current : s.current.length ≤ maxOverflowRetries + 1
  sending : ∀ iteration retries request, s.run.phase = .sending iteration retries request →
    s.current.length = retries + 1 ∧ s.current.getLast? = some request ∧ request = s.run.prepared
  failed : overflowed s.run.phase → ∃ request, s.current.getLast? = some request ∧
    request = s.run.prepared ∧ (request.fitted.exhausted = true ∨
      s.current.length = maxOverflowRetries + 1)

section Calls
variable {json : SerdeJson} {messages : List Message} {s t : CallTrace} {action : AgentAction}

/-- A step that sends nothing keeps the requests. -/
theorem CallTrace.note_of_gone {after : AgentRun} (gone : isSending after.phase = false) :
    s.note action after = { s with run := after } := by
  unfold CallTrace.note
  split
  · next phase =>
    rw [phase] at gone
    cases gone
  · next phase =>
    rw [phase] at gone
    cases gone
  · rfl

theorem CallsBounded.step (before : CallsBounded s)
    (stepped : (callLoop json messages).step s action = some t) :
    CallsBounded t := by
  obtain ⟨after, moved, rfl⟩ := Option.map_eq_some_iff.mp stepped
  cases AgentRun.step_calls moved with
  | begin iteration proceeds sends =>
      subst proceeds
      simp only [CallTrace.note, sends]
      refine ⟨fun call member => ?_, by simp, fun other retries request phase => ?_,
        fun failed => ?_⟩
      · rcases List.mem_append.mp member with old | new
        · exact before.earlier call old
        · rw [List.mem_singleton.mp new]
          exact before.current
      · rw [sends] at phase
        cases phase
        exact ⟨rfl, rfl, rfl⟩
      · rw [sends] at failed
        cases failed
  | retry iteration retries request reply replied old below sends =>
      subst replied
      obtain ⟨length, _, _⟩ := before.sending _ _ _ old
      have room := before.current
      simp only [CallTrace.note, sends]
      refine ⟨before.earlier, ?_, fun other later next phase => ?_, fun failed => ?_⟩
      · rw [List.length_append, List.length_singleton]
        omega
      · rw [sends] at phase
        cases phase
        exact ⟨by rw [List.length_append, List.length_singleton, length], List.getLast?_concat, rfl⟩
      · rw [sends] at failed
        cases failed
  | stay same built aside silent =>
      have kept : s.note action after = { s with run := after } := by
        unfold CallTrace.note
        split
        · exact absurd rfl aside
        · exact absurd rfl (silent _)
        · rfl
      rw [kept]
      refine ⟨before.earlier, before.current, fun iteration retries request phase => ?_,
        fun failed => ?_⟩
      · rw [built]
        exact before.sending iteration retries request (same.symm.trans phase)
      · rw [built]
        exact before.failed (by rwa [same] at failed)
  | fail iteration retries request old built gone last =>
      rw [CallTrace.note_of_gone gone]
      obtain ⟨length, newest, sent⟩ := before.sending _ _ _ old
      refine ⟨before.earlier, before.current, fun other later next phase => ?_, fun failed => ?_⟩
      · rw [phase] at gone
        cases gone
      · refine ⟨request, newest, sent.trans built.symm, ?_⟩
        rcases last with cap | exhausted
        · exact .inr (by rw [length, cap])
        · exact .inl exhausted
  | leave gone fine =>
      rw [CallTrace.note_of_gone gone]
      refine ⟨before.earlier, before.current, fun other later next phase => ?_, fun failed => ?_⟩
      · rw [phase] at gone
        cases gone
      · rw [fine] at failed
        cases failed

theorem CallsBounded.of_reachable (reached : (callLoop json messages).Reachable s) :
    CallsBounded s := by
  apply reached.invariant
  · rintro first ⟨⟨config, promptBuilder, toolsBytes, cancelled, start⟩, earlier, current⟩
    refine ⟨by simp [earlier], by simp [current], ?_, ?_⟩
    · intro iteration retries request phase
      rw [start] at phase
      cases phase
    · intro failed
      rw [start] at failed
      cases failed
  · intro first action last bounded _ stepped
    exact bounded.step stepped

/-- After an overflow that is not the last one, the same history is sent with more of it left out,
and nothing smaller can be sent exactly when all before the latest turn was left out. In every run a
call of the model sends a bounded number of requests, and a run fails with an overflow only after it
sent the latest turn alone or had no retry left. -/
theorem overflow_retries (json : SerdeJson) (messages : List Message) :
    (∀ (fitter : ContextFitter) (history : List Message),
      (∀ after, fitter.recordOverflowExact (fitter.fit history)
          (fitter.requestBytes (fitter.fit history).messages) = some after →
        (fitter.fit history).dropped < (after.fit history).dropped) ∧
      (fitter.recordOverflowExact (fitter.fit history)
          (fitter.requestBytes (fitter.fit history).messages) = none ↔
        (fitter.fit history).dropped = latestTurnStart history)) ∧
    ∀ s, (callLoop json messages).Reachable s →
      (∀ call ∈ s.earlier ++ [s.current], call.length ≤ maxOverflowRetries + 1) ∧
      ∀ providerMessage, s.run.phase = .returned (.error (.contextOverflow providerMessage)) →
        ∃ request, s.current.getLast? = some request ∧
          (request.fitted.dropped = latestTurnStart (answerMissingToolResults s.run.messages) ∨
            s.current.length = maxOverflowRetries + 1) := by
  refine ⟨fun fitter history =>
    ⟨fun after recorded => ContextFitter.fit_after_overflow recorded, ?_⟩, ?_⟩
  · rw [ContextFitter.recordOverflowExact_eq_none, ContextFitter.fit_exhausted]
  · intro s reached
    have bounded := CallsBounded.of_reachable reached
    refine ⟨fun call member => ?_, fun providerMessage returned => ?_⟩
    · rcases List.mem_append.mp member with old | new
      · exact bounded.earlier call old
      · rw [List.mem_singleton.mp new]
        exact bounded.current
    · obtain ⟨request, newest, built, last⟩ := bounded.failed (by rw [returned]; rfl)
      refine ⟨request, newest, last.imp_left fun exhausted => ?_⟩
      rw [built] at exhausted ⊢
      exact ContextFitter.fit_exhausted.mp exhausted

end Calls

/-- An early turn that can be left out, and the latest one. -/
def twoTurns : List Message := [.ofUser "read the three long files first", .ofUser "b"]

def tooLongStart : AgentRun :=
  .start ⟨"local", .openAiCompatible, "", "", "small", 5, 60, none, none, false,
    false⟩ none 2 [.ofUser "b"] false

/-- Two turns are followed by the latest one alone, and a turn that is
too long alone ends the run. -/
theorem overflow_retries_sample : (∃ fitter after : ContextFitter,
      fitter.recordOverflowExact (fitter.fit twoTurns)
        (fitter.requestBytes (fitter.fit twoTurns).messages) =
        some after ∧ (fitter.fit twoTurns).dropped < (after.fit twoTurns).dropped) ∧
    ∃ s, (callLoop ⟨fun _ => none, fun _ => ""⟩ [.ofUser "b"]).Reachable s ∧
      s.run.phase = .returned (.error (turnTooLong "too long")) ∧
      ∃ request, s.current.getLast? = some request ∧
        (request.fitted.dropped = latestTurnStart (answerMissingToolResults s.run.messages) ∨
          s.current.length = maxOverflowRetries + 1) := by
  constructor
  · let fitter : ContextFitter := ⟨none, 2, defaultBytesPerToken, none⟩
    obtain ⟨after, recorded⟩ : ∃ after, fitter.recordOverflowExact (fitter.fit twoTurns)
        (fitter.requestBytes (fitter.fit twoTurns).messages) = some after := ⟨_, rfl⟩
    exact ⟨fitter, after, recorded,
      ((overflow_retries ⟨fun _ => none, fun _ => ""⟩ []).1 fitter twoTurns).1 after recorded⟩
  · obtain ⟨s, executed, failed⟩ : ∃ s, (callLoop ⟨fun _ => none, fun _ => ""⟩ [.ofUser "b"]).exec
        ⟨tooLongStart, [], []⟩ [.proceed, .reply (.error (.contextOverflow "too long"))] = some s ∧
        s.run.phase = .returned (.error (turnTooLong "too long")) := ⟨_, rfl, rfl⟩
    have started : (callLoop ⟨fun _ => none, fun _ => ""⟩ [.ofUser "b"]).start
        ⟨tooLongStart, [], []⟩ :=
      ⟨⟨_, none, 2, false, rfl⟩, rfl, rfl⟩
    have reached := Machine.reachable_of_exec started executed
    exact ⟨s, reached, failed, ((overflow_retries _ _).2 s reached).2 _ failed⟩

end Openheim
