import Openheim.Core.AgentSteps

/-
This file compares the `ContextTrimmed` events of a run with the requests that it sends.
-/

namespace Openheim

/-- What is seen of the trimming of a run: a report, and a request that
leaves a number of messages out. -/
inductive TrimItem where
  | reported (dropped : Nat)
  | sent (dropped : Nat)
  deriving DecidableEq, Repr

def TrimItem.request : TrimItem → Option Nat
  | .sent dropped => some dropped
  | .reported _ => none

def StreamEvent.trimmed : StreamEvent → Option Nat
  | .contextTrimmed dropped => some dropped
  | _ => none

/-- The request that a step sends; only an iteration that starts and an overflow send one. -/
def requestSent (action : AgentAction) (after : Phase) : Option Nat :=
  match action, after with
  | .proceed, .sending _ _ request => some request.fitted.dropped
  | .reply _, .sending _ _ request => some request.fitted.dropped
  | _, _ => none

/-- What one step adds: its reports and then its request. -/
def trimItems (run after : AgentRun) (action : AgentAction) : List TrimItem :=
  ((after.events.drop run.events.length).filterMap StreamEvent.trimmed).map .reported ++
    ((requestSent action after.phase).map .sent).toList

/-- All runs of `run_agent` with the reports and the requests so far. -/
def trimLoop (json : SerdeJson) (messages : List Message) :
    Machine (AgentRun × List TrimItem) AgentAction where
  start s := (agentLoop json messages).start s.1 ∧ s.2 = []
  step s action :=
    (s.1.step json action).map fun after => (after, s.2 ++ trimItems s.1 after action)

/-- Every change of the number of left out messages is reported right before its request. -/
def reportedChanges : Nat → List Nat → List TrimItem
  | _, [] => []
  | previous, dropped :: rest =>
      if dropped ≠ previous then .reported dropped :: .sent dropped :: reportedChanges dropped rest
      else .sent dropped :: reportedChanges dropped rest

/-- The reports that are made: a number is reported when it is positive and not the
last one that was reported. -/
def actualReports : Nat → List Nat → List TrimItem
  | _, [] => []
  | reported, dropped :: rest =>
      if 0 < dropped ∧ dropped ≠ reported then
        .reported dropped :: .sent dropped :: actualReports dropped rest
      else .sent dropped :: actualReports reported rest

/-- The number in the last report. -/
def lastReported : Nat → List Nat → Nat
  | reported, [] => reported
  | reported, dropped :: rest => lastReported (if 0 < dropped then dropped else reported) rest

section Sequences

/-- One more request is reported if it leaves out a number of messages
that was not reported last. -/
theorem actualReports_concat (reported : Nat) (requests : List Nat) (dropped : Nat) :
    actualReports reported (requests ++ [dropped]) = actualReports reported requests ++
      if 0 < dropped ∧ dropped ≠ lastReported reported requests then
        [.reported dropped, .sent dropped]
      else [.sent dropped] := by
  induction requests generalizing reported with
  | nil =>
      rw [List.nil_append, actualReports, actualReports, lastReported]
      split <;> rfl
  | cons first rest ih =>
      rw [List.cons_append, actualReports, actualReports, lastReported]
      by_cases change : 0 < first ∧ first ≠ reported
      · rw [if_pos change, if_pos change, if_pos change.1, ih]
        rfl
      · have same : (if 0 < first then first else reported) = reported := by
          split
          · by_contra different
            exact change ⟨‹_›, different⟩
          · rfl
        rw [if_neg change, if_neg change, same, ih]
        rfl

/-- A request that leaves nothing out keeps the number reported last. -/
theorem lastReported_concat (reported : Nat) (requests : List Nat) (dropped : Nat) :
    lastReported reported (requests ++ [dropped]) =
      if 0 < dropped then dropped else lastReported reported requests := by
  induction requests generalizing reported with
  | nil => rfl
  | cons first rest ih => exact ih _

/-- The reports are the changes as long as nothing is left out only while
nothing was left out before. -/
theorem actualReports_eq_iff (reported : Nat) (requests : List Nat) :
    actualReports reported requests = reportedChanges reported requests ↔
      (0 < reported → ∀ later ∈ requests, 0 < later) ∧
        requests.Pairwise fun earlier later => 0 < earlier → 0 < later := by
  induction requests generalizing reported with
  | nil => simp [actualReports, reportedChanges]
  | cons dropped rest ih =>
      rw [actualReports, reportedChanges, List.pairwise_cons]
      by_cases positive : 0 < dropped
      · by_cases change : dropped ≠ reported
        · rw [if_pos ⟨positive, change⟩, if_pos change, List.cons_inj_right,
            List.cons_inj_right, ih]
          constructor
          · rintro ⟨all, pairwise⟩
            exact ⟨fun _ later member => (List.mem_cons.mp member).elim (· ▸ positive)
              (all positive later), fun later member _ => all positive later member, pairwise⟩
          · rintro ⟨_, all, pairwise⟩
            exact ⟨fun _ later member => all later member positive, pairwise⟩
        · obtain rfl := not_ne_iff.mp change
          rw [if_neg (fun both => both.2 rfl), if_neg (fun differ => differ rfl),
            List.cons_inj_right, ih]
          constructor
          · rintro ⟨all, pairwise⟩
            exact ⟨fun _ later member => (List.mem_cons.mp member).elim (· ▸ positive)
              (all positive later), fun later member _ => all positive later member, pairwise⟩
          · rintro ⟨_, all, pairwise⟩
            exact ⟨fun _ later member => all later member positive, pairwise⟩
      · obtain rfl : dropped = 0 := by omega
        rw [if_neg (fun both => positive both.1)]
        by_cases start : reported = 0
        · subst start
          rw [if_neg (fun differ => differ rfl), List.cons_inj_right, ih]
          simp
        · rw [if_pos (Ne.symm start)]
          constructor
          · intro same
            cases (List.cons.inj same).1
          · rintro ⟨all, _⟩
            exact absurd (all (Nat.pos_of_ne_zero start) 0 List.mem_cons_self) positive

end Sequences

namespace AgentRun

/-- The run goes on without a report and without a request. -/
structure Silent (run after : AgentRun) : Prop where
  reported : after.reportedDropped = run.reportedDropped
  events : ∃ extra, after.events = run.events ++ extra ∧ extra.filterMap StreamEvent.trimmed = []

/-- The run sends a request, and reports its number if that is positive and new. -/
structure Sends (run after : AgentRun) (dropped : Nat) : Prop where
  reported : after.reportedDropped = if 0 < dropped then dropped else run.reportedDropped
  events : ∃ extra, after.events = run.events ++ extra ∧ extra.filterMap StreamEvent.trimmed =
    if 0 < dropped ∧ dropped ≠ run.reportedDropped then [dropped] else []

section Steps
variable {run middle after : AgentRun}

theorem Silent.refl (run : AgentRun) : Silent run run := ⟨rfl, [], (List.append_nil _).symm, rfl⟩

/-- Two silent parts of a run are silent together. -/
theorem Silent.trans (first : Silent run middle) (second : Silent middle after) :
    Silent run after := by
  obtain ⟨same, extra, added, quiet⟩ := first
  obtain ⟨still, more, later, silent⟩ := second
  refine ⟨still.trans same, extra ++ more, ?_, ?_⟩
  · rw [later, added, List.append_assoc]
  · rw [List.filterMap_append, quiet, silent, List.append_nil]

/-- A step that changes neither the events nor the number reported is silent. -/
theorem Silent.of_same (same : after.reportedDropped = run.reportedDropped)
    (events : after.events = run.events) :
    Silent run after := ⟨same, [], by rw [events, List.append_nil], rfl⟩

/-- A silent part before a request changes nothing about it. -/
theorem Silent.sends (first : Silent run middle) {dropped : Nat}
    (second : Sends middle after dropped) :
    Sends run after dropped := by
  obtain ⟨same, extra, added, quiet⟩ := first
  obtain ⟨reported, more, later, report⟩ := second
  rw [same] at reported report
  refine ⟨reported, extra ++ more, ?_, ?_⟩
  · rw [later, added, List.append_assoc]
  · rw [List.filterMap_append, quiet, report, List.nil_append]

/-- Events about other things are silent. -/
theorem silent_emit (run : AgentRun) {extra : List StreamEvent}
    (quiet : extra.filterMap StreamEvent.trimmed = []) :
    Silent run (run.emit extra) := ⟨rfl, extra, rfl, quiet⟩

theorem silent_enter (run : AgentRun) (phase : Phase) : Silent run (run.enter phase) :=
  .of_same rfl rfl

theorem silent_finish (run : AgentRun) (stopReason : StopReason) :
    Silent run (run.finish stopReason) :=
  (silent_emit run rfl).trans (silent_enter _ _)

theorem silent_append (run : AgentRun) (message : Message) : Silent run (run.append message) :=
  ⟨rfl, [.messageAppended message], rfl, rfl⟩

/-- Reporting the usage is silent. -/
theorem silent_reportUsage (run : AgentRun) (usage : Option Usage) :
    Silent run (run.reportUsage usage) := by
  cases usage with
  | none => exact .refl run
  | some usage =>
      have noted : Silent run { run with contextUsage := some usage } := .of_same rfl rfl
      have quiet : [StreamEvent.usage usage].filterMap StreamEvent.trimmed = [] := rfl
      exact noted.trans (silent_emit _ quiet)

/-- Recording results is silent. -/
theorem silent_record (run : AgentRun) (calls : List (ToolUseBlock × Option (String × Bool))) :
    Silent run (run.record calls) := by
  induction calls generalizing run with
  | nil => exact .refl run
  | cons entry rest ih =>
      obtain ⟨call, outcome⟩ := entry
      cases outcome with
      | none => exact ((silent_emit run rfl).trans (silent_append _ _)).trans (ih _)
      | some outcome => exact (silent_append _ _).trans (ih _)

/-- Leaving the calls is silent. -/
theorem silent_leaveCalls (run : AgentRun) (iteration : Nat) (choice : Reply)
    (outcomes : List (Option (String × Bool))) :
    Silent run (run.leaveCalls iteration choice outcomes) :=
  (silent_record run _).trans (silent_enter _ _)

theorem silent_answer (run : AgentRun) (finalResponse : String) :
    Silent run { run with finalResponse } :=
  .of_same rfl rfl

/-- Taking a reply is silent. -/
theorem silent_accept (run : AgentRun) (iteration : Nat) (request : Request) (choice : Reply) :
    Silent run (run.accept iteration request choice) := by
  let fitter := choice.usage.elim run.fitter (run.fitter.recordUsage request.bytes)
  have calibrated : Silent run { run with fitter } := .of_same rfl rfl
  have appended :=
    (calibrated.trans (silent_append _ choice.message)).trans (silent_reportUsage _ choice.usage)
  have announced : (choice.message.toolCalls.map announceCall).filterMap
      StreamEvent.trimmed = [] := by
    rw [List.filterMap_map, List.filterMap_eq_nil_iff]
    intro call _
    rfl
  unfold AgentRun.accept
  dsimp only
  split
  · split
    · exact (appended.trans (silent_answer _ _)).trans (silent_enter _ _)
    · exact (appended.trans (silent_answer _ _)).trans (silent_finish _ _)
  · exact (appended.trans (silent_emit _ announced)).trans (silent_enter _ _)

/-- A request is reported when its number is positive and was not the last one reported. -/
theorem sends_send (run : AgentRun) (iteration overflowRetries : Nat) :
    ∃ request, (run.send iteration overflowRetries).phase =
      .sending iteration overflowRetries request ∧
      Sends run (run.send iteration overflowRetries) request.fitted.dropped := by
  unfold AgentRun.send
  dsimp only
  split
  · next change =>
    refine ⟨_, rfl, ?_, _, rfl, ?_⟩
    · rw [if_pos change.1]
      rfl
    · rw [if_pos change]
      rfl
  · next same =>
    refine ⟨_, rfl, ?_, [], (List.append_nil _).symm, ?_⟩
    · split
      · next positive => exact (not_ne_iff.mp fun differ => same ⟨positive, differ⟩).symm
      · rfl
    · rw [if_neg same]
      rfl

/-- Settling a call is silent. -/
theorem silent_settle (run : AgentRun) (iteration : Nat) (choice : Reply)
    (decisions : List Decision)
    (progress : List Progress) (index : Nat) (call : ToolUseBlock) (result : String)
    (isError : Bool) :
    Silent run (run.settle iteration choice decisions progress index call result isError) :=
  (silent_emit run rfl).trans (silent_enter _ _)

/-- A call that completes is silent. -/
theorem silent_complete {index : Nat} {result : Except String String}
    (stepped : run.complete index result = some after) : Silent run after := by
  unfold AgentRun.complete at stepped
  split at stepped
  · split at stepped
    · obtain ⟨text, _, rfl⟩ := Option.map_eq_some_iff.mp stepped
      exact silent_settle run _ _ _ _ _ _ _ _
    · split at stepped
      · cases stepped
        exact silent_settle run _ _ _ _ _ _ _ _
      · cases stepped
        exact silent_settle run _ _ _ _ _ _ _ _
    · cases stepped
  · cases stepped

/-- Looking at the token is silent. -/
theorem silent_observeCancel (stepped : run.observeCancel = some after) : Silent run after := by
  unfold AgentRun.observeCancel at stepped
  split at stepped
  · split at stepped
    · cases stepped
      exact silent_finish run _
    · cases stepped
      exact silent_leaveCalls run _ _ _
    · cases stepped
      exact silent_leaveCalls run _ _ _
    · cases stepped
  · cases stepped

/-- A decision is silent. -/
theorem silent_decide {index : Nat} {decision : PermissionDecision}
    (stepped : run.decide index decision = some after) :
    Silent run after := by
  unfold AgentRun.decide at stepped
  split at stepped
  · split at stepped
    · cases stepped
      exact silent_enter run _
    · cases stepped
  · cases stepped

/-- Executing a call is silent. -/
theorem silent_execute {index : Nat} (stepped : run.execute index = some after) :
    Silent run after := by
  unfold AgentRun.execute at stepped
  split at stepped
  · split at stepped
    · split at stepped
      · cases stepped
        exact silent_enter run _
      · cases stepped
    · cases stepped
  · cases stepped

/-- An iteration that starts sends a request; the other steps of the loop send none. -/
theorem proceed_sends {json : SerdeJson} (stepped : run.proceed json = some after) :
    (Silent run after ∧ requestSent .proceed after.phase = none) ∨
      ∃ dropped, Sends run after dropped ∧ requestSent .proceed after.phase = some dropped := by
  unfold AgentRun.proceed at stepped
  split at stepped
  · next iteration _ =>
    split at stepped
    · cases stepped
      exact .inl ⟨silent_finish _ _, rfl⟩
    · split at stepped
      · cases stepped
        exact .inl ⟨silent_finish _ _, rfl⟩
      · cases stepped
        have counted : Silent run { run with iterationsUsed := iteration + 1 } := .of_same rfl rfl
        have quiet : [StreamEvent.iterationStart (iteration + 1)].filterMap
          StreamEvent.trimmed = [] := rfl
        have opened := counted.trans (silent_emit _ quiet)
        obtain ⟨request, phase, sends⟩ :=
          sends_send ({ run with iterationsUsed := iteration + 1 }.emit
            [.iterationStart (iteration + 1)]) iteration 0
        exact .inr ⟨request.fitted.dropped, opened.sends sends, by rw [phase]; rfl⟩
  · split at stepped
    · cases stepped
      exact .inl ⟨silent_leaveCalls _ _ _ _, rfl⟩
    · cases stepped
      exact .inl ⟨silent_enter _ _, rfl⟩
  · split at stepped
    · cases stepped
    · cases stepped
      exact .inl ⟨silent_enter _ _, rfl⟩
  · split at stepped
    · cases stepped
      exact .inl ⟨silent_leaveCalls _ _ _ _, rfl⟩
    · cases stepped
  · split at stepped
    · cases stepped
      exact .inl ⟨silent_finish _ _, rfl⟩
    · cases stepped
      exact .inl ⟨silent_enter _ _, rfl⟩
  · cases stepped

/-- An overflow sends a request again, or ends the run. -/
theorem reject_sends (run : AgentRun) (iteration overflowRetries : Nat) (request : Request)
    (error : Error) (reply : Except Error Reply) :
    (Silent run (run.reject iteration overflowRetries request error) ∧
      requestSent (.reply reply) (run.reject iteration overflowRetries request error).phase =
        none) ∨
      ∃ dropped, Sends run (run.reject iteration overflowRetries request error) dropped ∧
        requestSent (.reply reply) (run.reject iteration overflowRetries request error).phase =
          some dropped := by
  unfold AgentRun.reject
  split
  · split
    · exact .inl ⟨silent_enter _ _, rfl⟩
    · split
      · exact .inl ⟨silent_enter _ _, rfl⟩
      · next fitter _ =>
        have lowered : Silent run { run with fitter } := .of_same rfl rfl
        obtain ⟨next, phase, sends⟩ :=
          sends_send { run with fitter } iteration (overflowRetries + 1)
        exact .inr ⟨next.fitted.dropped, lowered.sends sends, by rw [phase]; rfl⟩
  · exact .inl ⟨silent_enter _ _, rfl⟩

/-- A reply that arrived sends nothing by itself. -/
theorem accept_requestSent (run : AgentRun) (iteration : Nat) (request : Request) (choice : Reply)
    (reply : Except Error Reply) :
    requestSent (.reply reply) (run.accept iteration request choice).phase = none := by
  unfold AgentRun.accept
  dsimp only
  split
  · split
    · rfl
    · rfl
  · rfl

/-- This is every step of a run: it sends one request or it is silent. -/
theorem step_sends {json : SerdeJson} {action : AgentAction}
    (stepped : run.step json action = some after) :
    (Silent run after ∧ requestSent action after.phase = none) ∨
      ∃ dropped, Sends run after dropped ∧ requestSent action after.phase = some dropped := by
  cases action with
  | cancel =>
      cases stepped
      exact .inl ⟨.of_same rfl rfl, rfl⟩
  | proceed => exact proceed_sends stepped
  | chunk chunk =>
      simp only [AgentRun.step] at stepped
      split at stepped
      · cases stepped
        cases chunk with
        | text text => exact .inl ⟨silent_emit _ rfl, rfl⟩
        | thinking thought => exact .inl ⟨silent_emit _ rfl, rfl⟩
      · cases stepped
  | reply reply =>
      simp only [AgentRun.step] at stepped
      split at stepped
      · cases stepped
        exact .inl ⟨silent_accept _ _ _ _, accept_requestSent _ _ _ _ _⟩
      · cases stepped
        exact reject_sends _ _ _ _ _ _
      · cases stepped
  | decide index decision => exact .inl ⟨silent_decide stepped, rfl⟩
  | execute index => exact .inl ⟨silent_execute stepped, rfl⟩
  | complete index result => exact .inl ⟨silent_complete stepped, rfl⟩
  | observeCancel => exact .inl ⟨silent_observeCancel stepped, rfl⟩

/-- A step only adds events. -/
theorem step_events {json : SerdeJson} {action : AgentAction}
    (stepped : run.step json action = some after) :
    run.events <+: after.events := by
  rcases step_sends stepped with ⟨silent, _⟩ | ⟨dropped, sends, _⟩
  · obtain ⟨extra, events, _⟩ := silent.events
    exact ⟨extra, events.symm⟩
  · obtain ⟨extra, events, _⟩ := sends.events
    exact ⟨extra, events.symm⟩

end Steps

end AgentRun

section Runs
variable {json : SerdeJson} {messages : List Message}

/-- The requests of a trace, in the order in which they were sent. -/
def sentRequests (trace : List TrimItem) : List Nat := trace.filterMap TrimItem.request

/-- What a run keeps: its trace is what the loop reports about its requests, and
it remembers the last report. -/
structure Reports (s : AgentRun × List TrimItem) : Prop where
  trace : s.2 = actualReports 0 (sentRequests s.2)
  remembered : s.1.reportedDropped = lastReported 0 (sentRequests s.2)

/-- At the start nothing was sent or reported. -/
theorem reports_start {s : AgentRun × List TrimItem} (started : (trimLoop json messages).start s) :
    Reports s := by
  obtain ⟨run, trace⟩ := s
  obtain ⟨⟨config, promptBuilder, toolsBytes, cancelled, fresh⟩, empty⟩ := started
  cases fresh
  cases empty
  exact ⟨rfl, rfl⟩

/-- Every step keeps the reports those that the requests ask for. -/
theorem reports_step {s t : AgentRun × List TrimItem} {action : AgentAction} (before : Reports s)
    (stepped : (trimLoop json messages).step s action = some t) : Reports t := by
  obtain ⟨run, trace⟩ := s
  obtain ⟨after, moved, rfl⟩ := Option.map_eq_some_iff.mp stepped
  rcases AgentRun.step_sends moved with ⟨⟨same, extra, events, quiet⟩, unsent⟩ |
    ⟨dropped, ⟨reported, extra, events, report⟩, sent⟩
  · have nothing : trimItems run after action = [] := by
      unfold trimItems
      rw [events, List.drop_left, quiet, unsent]
      rfl
    rw [nothing, List.append_nil]
    exact ⟨before.trace, same.trans before.remembered⟩
  · have items : trimItems run after action =
        if 0 < dropped ∧ dropped ≠ lastReported 0 (sentRequests trace) then
          [.reported dropped, .sent dropped]
        else [.sent dropped] := by
      unfold trimItems
      rw [events, List.drop_left, report, sent, before.remembered]
      split <;> rfl
    have requests : sentRequests (trace ++ trimItems run after action) =
        sentRequests trace ++ [dropped] := by
      unfold sentRequests
      rw [List.filterMap_append, items]
      split <;> rfl
    refine ⟨?_, ?_⟩
    · show trace ++ trimItems run after action =
        actualReports 0 (sentRequests (trace ++ trimItems run after action))
      rw [requests, actualReports_concat, ← before.trace, items]
    · show after.reportedDropped =
        lastReported 0 (sentRequests (trace ++ trimItems run after action))
      rw [requests, lastReported_concat, reported, before.remembered]

/-- In every state of every run, the trace shows exactly the changes when nothing is left out only
while nothing was left out before. -/
theorem trim_reports {s : AgentRun × List TrimItem}
    (reached : (trimLoop json messages).Reachable s) :
    s.2 = reportedChanges 0 (sentRequests s.2) ↔
      (sentRequests s.2).Pairwise fun earlier later => 0 < earlier → 0 < later := by
  have reports : Reports s := reached.invariant (fun _ => reports_start) fun _ _ _ before _ =>
    reports_step before
  have changes := actualReports_eq_iff 0 (sentRequests s.2)
  rw [← reports.trace] at changes
  rw [changes]
  exact ⟨fun both => both.2, fun pairwise =>
    ⟨fun positive => absurd positive (Nat.lt_irrefl 0), pairwise⟩⟩

/-- An early user message that fills the window alone, and a short one after it. -/
def crowdedHistory : List Message := [.ofUser "read the three long files first", .ofUser "b"]

def crowdedJson : SerdeJson := ⟨fun _ => none, fun _ => ""⟩

/-- The window holds one of the two messages until the first reply says how
few tokens the request had. -/
def crowdedStart : AgentRun :=
  .start ⟨"local", .openAiCompatible, "", "", "small", 5, 60, none, some 15, false,
    false⟩ none 2 crowdedHistory false

/-- A reply that pauses the turn and reports one input token. -/
def pausedReply : Reply := ⟨⟨.ofAssistant "x", some .paused, some ⟨1, 1, 0, 0⟩⟩, rfl⟩

theorem crowdedStart_starts : (trimLoop crowdedJson crowdedHistory).start (crowdedStart, []) :=
  ⟨⟨_, none, 2, false, rfl⟩, rfl⟩

/-- The first request of the sample leaves one message out and says so. -/
theorem trim_reports_sample : ∃ s : AgentRun × List TrimItem, s.2 = [.reported 1, .sent 1] ∧
    (s.2 = reportedChanges 0 (sentRequests s.2) ↔
      (sentRequests s.2).Pairwise fun earlier later => 0 < earlier → 0 < later) := by
  have ran :
      ((trimLoop crowdedJson crowdedHistory).exec (crowdedStart, []) [.proceed]).map Prod.snd =
      some [.reported 1, .sent 1] := by decide +kernel
  obtain ⟨s, executed, trace⟩ := Option.map_eq_some_iff.mp ran
  exact ⟨s, trace, trim_reports (Machine.reachable_of_exec crowdedStart_starts executed)⟩

/-- The second request leaves nothing out any more, and nothing reports that. -/
theorem trim_return_unreported : ∃ s, (trimLoop crowdedJson crowdedHistory).Reachable s ∧
    s.2 = [.reported 1, .sent 1, .sent 0] ∧ s.2 ≠ reportedChanges 0 (sentRequests s.2) := by
  have ran : ((trimLoop crowdedJson crowdedHistory).exec (crowdedStart, [])
      [.proceed, .reply (.ok pausedReply), .proceed]).map Prod.snd =
          some [.reported 1, .sent 1, .sent 0] := by
    decide +kernel
  obtain ⟨s, executed, trace⟩ := Option.map_eq_some_iff.mp ran
  refine ⟨s, Machine.reachable_of_exec crowdedStart_starts executed, trace, ?_⟩
  rw [trace]
  decide

end Runs

end Openheim
