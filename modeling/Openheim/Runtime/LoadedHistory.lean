import Openheim.Memory.History
import Openheim.Runtime.RunningTurns

/-
This file follows `load_session` and `prompt` of `src/core/runtime/state.rs` with the histories that
they read and write. The log of a conversation is the list of the messages that `load_conversation`
reads. A call of `load_session` reads it before it waits for the write lock of the sessions, and
turns go on in between.
-/

namespace Openheim.Runtime
open Openheim.Memory

/-- A call of `load_session` that has read its conversation. -/
structure LoadCall where
  sessionId : String
  id : Uuid
  messages : List Message

/-- What a turn has in memory: the messages of its conversation, and
whether a write of them failed. -/
structure TurnMemory where
  messages : List Message
  writeFailed : Bool

/-- The runtime with its histories. The calls of `load_session` are numbered; one at
a time holds the write lock. -/
structure HistoryState where
  agent : AgentState
  log : Uuid → List Message
  memory : Nat → TurnMemory
  calls : Nat → Option LoadCall
  nextCall : Nat
  opener : Option (Nat × LoadCall)
  shown : Nat → Option (Except Error (List Message))

/-- What becomes of the writes for one message: nothing can be read of it, its line is written but
the update of the meta file fails, or both succeed. -/
inductive RecordOutcome where
  | unwritten
  | lineOnly
  | whole
  deriving DecidableEq, Repr

/-- A step of the runtime that touches no history, or one that does,
with the outcome of its write. -/
inductive HistoryAction where
  | agent (action : Action)
  | readHistory (sessionId : String)
  | enterLoad (call : Nat) (config : AgentConfig)
  | prepare (number : Nat) (resolved built : Bool)
  | record (number : Nat) (message : Message) (outcome : RecordOutcome)
  | save (number : Nat) (written : Bool)

/-- The steps that read no history. -/
def Action.isApart : Action → Bool
  | .loadSession _ _ | .prepare _ _ _ => false
  | _ => true

namespace HistoryState

/-- When the call that holds the write lock returns, it shows the messages
that it read at its beginning. -/
def follow (s : HistoryState) (agent : AgentState) : HistoryState :=
  match s.opener, agent.opening with
  | some (call, load), none =>
      { s with
        agent
        opener := none
        shown :=
          Function.update s.shown call (agent.opened.map fun result => result.map fun _ =>
              load.messages) }
  | _, _ => { s with agent }

/-- A message joins the conversation in memory, and the log as long as no write failed. -/
def record (s : HistoryState) (number : Nat) (id : Uuid) (message : Message)
    (outcome : RecordOutcome) :
    HistoryState :=
  let memory := s.memory number
  let messages := memory.messages ++ [message]
  if memory.writeFailed then { s with memory := Function.update s.memory number ⟨messages, true⟩ }
  else
    match outcome with
    | .unwritten => { s with memory := Function.update s.memory number ⟨messages, true⟩ }
    | .lineOnly =>
        { s with
          memory := Function.update s.memory number ⟨messages, true⟩
          log := Function.update s.log id (s.log id ++ [message]) }
    | .whole =>
        { s with
          memory := Function.update s.memory number ⟨messages, false⟩
          log := Function.update s.log id (s.log id ++ [message]) }

/-- The end of a turn with a failed write puts the whole conversation into the log,
unless the log diverged from it. -/
def save (s : HistoryState) (number : Nat) (id : Uuid) (written : Bool) : HistoryState :=
  let memory := s.memory number
  if memory.writeFailed ∧ written ∧ diverged (s.log id) memory.messages = false then
    { s with log := Function.update s.log id memory.messages }
  else s

end HistoryState

section Crate
variable (uuid : UuidCrate) (baseline : AgentConfig)

/-- The turn with a number that runs the agent. -/
def runningTurn (s : HistoryState) (number : Nat) : Option Turn :=
  (s.agent.turns number).filter fun turn => turn.stage = .running

def historyStep (s : HistoryState) : HistoryAction → Option HistoryState
  | .agent action =>
      if action.isApart then (agentStep uuid baseline s.agent action).map s.follow else none
  | .readHistory sessionId =>
      match uuid.parseStr sessionId with
      | none => some s
      | some id =>
          if s.agent.saved id then
            some { s with
              calls := Function.update s.calls s.nextCall (some ⟨sessionId, id, s.log id⟩)
              nextCall := s.nextCall + 1 }
          else some s
  | .enterLoad call config =>
      match s.calls call with
      | none => none
      | some load =>
          (agentStep uuid baseline s.agent (.loadSession load.sessionId config)).bind fun agent =>
            if agent.opening.isSome then
              some { s with
                agent, calls := Function.update s.calls call none, opener := some (call, load) }
            else none
  | .prepare number resolved built =>
      match s.agent.turns number with
      | none => none
      | some turn =>
          (agentStep uuid baseline s.agent (.prepare number resolved built)).map fun agent =>
            { s with agent, memory := Function.update s.memory number ⟨s.log turn.chatId, false⟩ }
  | .record number message outcome =>
      (runningTurn s number).map fun turn => s.record number turn.chatId message outcome
  | .save number written => (runningTurn s number).map fun turn => s.save number turn.chatId written

/-- No call of `load_session` has begun. -/
def historyMachine : Machine HistoryState HistoryAction where
  start s := (agentMachine uuid baseline).start s.agent ∧ (∀ call, s.calls call = none) ∧
    s.opener = none ∧ ∀ id, s.agent.saved id = false → s.log id = []
  step := historyStep uuid baseline

end Crate

/-- A step that puts nothing into the log of a conversation. -/
def QuietOn (id : Uuid) (s : HistoryState) : HistoryAction → Prop
  | .record number _ outcome => ∀ turn, runningTurn s number = some turn → turn.chatId = id →
      (s.memory number).writeFailed = true ∨ outcome = .unwritten
  | .save number written => ∀ turn, runningTurn s number = some turn → turn.chatId = id →
      (s.memory number).writeFailed = false ∨ written = false ∨
        diverged (s.log id) (s.memory number).messages = true ∨
        (s.memory number).messages = s.log id
  | _ => True

section Log
variable {uuid : UuidCrate} {baseline : AgentConfig} {s t : HistoryState} {action : HistoryAction}
  {id : Uuid}

theorem follow_log (s : HistoryState) (agent : AgentState) : (s.follow agent).log = s.log := by
  unfold HistoryState.follow
  split
  · rfl
  · rfl

/-- What a step does to the log of one conversation. -/
inductive LogStep (id : Uuid) (s : HistoryState) (action : HistoryAction)
    (t : HistoryState) : Prop where
  | quiet (silent : QuietOn id s action) (same : t.log id = s.log id)
  | grows (loud : ¬ QuietOn id s action) (longer : (s.log id).length < (t.log id).length)

/-- Recording a message is a step of the log. -/
theorem logStep_record {number : Nat} {turn : Turn} (runs : runningTurn s number = some turn)
    (message : Message) (outcome : RecordOutcome) :
    LogStep id s (.record number message outcome)
      (s.record number turn.chatId message outcome) := by
  have only (other : Turn) (also : runningTurn s number = some other) : other = turn := by
    rw [runs] at also
    exact (Option.some.inj also).symm
  have appended (after : HistoryState) (log : after.log =
      Function.update s.log turn.chatId (s.log turn.chatId ++ [message]))
      (sound : (s.memory number).writeFailed ≠ true) (written : outcome ≠ .unwritten) :
      LogStep id s (.record number message outcome) after := by
    by_cases own : turn.chatId = id
    · subst own
      refine .grows (fun silent => ?_) (by simp [log])
      exact (silent turn runs rfl).elim sound written
    · refine .quiet (fun other also same => absurd (only other also ▸ same) own) ?_
      rw [log]
      exact Function.update_of_ne (Ne.symm own) _ _
  unfold HistoryState.record
  dsimp only
  split
  · next failed => exact .quiet (fun _ _ _ => .inl failed) rfl
  · next sound =>
    cases outcome with
    | unwritten => exact .quiet (fun _ _ _ => .inr rfl) rfl
    | lineOnly => exact appended _ rfl sound (by decide)
    | whole => exact appended _ rfl sound (by decide)

/-- Saving a conversation is a step of the log. -/
theorem logStep_save {number : Nat} {turn : Turn} (runs : runningTurn s number = some turn)
    (written : Bool) :
    LogStep id s (.save number written) (s.save number turn.chatId written) := by
  have only (other : Turn) (also : runningTurn s number = some other) : other = turn := by
    rw [runs] at also
    exact (Option.some.inj also).symm
  unfold HistoryState.save
  dsimp only
  by_cases own : turn.chatId = id
  · subst own
    split
    · next rewrites =>
      obtain ⟨failed, done, extends_⟩ := rewrites
      by_cases same : (s.memory number).messages = s.log turn.chatId
      · exact .quiet (fun _ _ _ => .inr (.inr (.inr same))) (by simp [same])
      · refine .grows (fun silent => ?_) ?_
        · rcases silent turn runs rfl with sound | unwritten | diverges | equal
          · rw [failed] at sound
            cases sound
          · rw [done] at unwritten
            cases unwritten
          · rw [extends_] at diverges
            cases diverges
          · exact same equal
        · have longer := (diverged_eq_false _ _).mp extends_
          simp only [Function.update_self]
          exact Nat.lt_of_le_of_ne longer.length_le fun size => same (longer.eq_of_length size).symm
    · next keeps =>
      refine .quiet (fun other also same => ?_) rfl
      by_contra loud
      simp only [not_or, Bool.not_eq_false, Bool.not_eq_true] at loud
      exact keeps ⟨loud.1, loud.2.1, loud.2.2.1⟩
  · refine .quiet (fun other also same => absurd (only other also ▸ same) own) ?_
    split
    · exact Function.update_of_ne (Ne.symm own) _ _
    · rfl

/-- A step of a turn makes the log of its conversation longer, or it
is quiet and changes nothing. -/
theorem log_step (stepped : historyStep uuid baseline s action = some t) :
    LogStep id s action t := by
  cases action with
  | agent action =>
      simp only [historyStep] at stepped
      split at stepped
      · obtain ⟨agent, _, rfl⟩ := Option.map_eq_some_iff.mp stepped
        exact .quiet trivial (by rw [follow_log])
      · cases stepped
  | readHistory sessionId =>
      simp only [historyStep] at stepped
      split at stepped
      · cases stepped
        exact .quiet trivial rfl
      · split at stepped
        · cases stepped
          exact .quiet trivial rfl
        · cases stepped
          exact .quiet trivial rfl
  | enterLoad call config =>
      simp only [historyStep] at stepped
      split at stepped
      · cases stepped
      · obtain ⟨agent, _, entered⟩ := Option.bind_eq_some_iff.mp stepped
        split at entered
        · cases entered
          exact .quiet trivial rfl
        · cases entered
  | prepare number resolved built =>
      simp only [historyStep] at stepped
      split at stepped
      · cases stepped
      · obtain ⟨agent, _, rfl⟩ := Option.map_eq_some_iff.mp stepped
        exact .quiet trivial rfl
  | record number message outcome =>
      obtain ⟨turn, runs, rfl⟩ := Option.map_eq_some_iff.mp stepped
      exact logStep_record runs message outcome
  | save number written =>
      obtain ⟨turn, runs, rfl⟩ := Option.map_eq_some_iff.mp stepped
      exact logStep_save runs written

/-- The log only grows, and it is the same at the end exactly when every step was quiet. -/
theorem log_run {actions : List HistoryAction}
    (ran : (historyMachine uuid baseline).exec s actions = some t) (id : Uuid) :
    (s.log id).length ≤ (t.log id).length ∧
      (t.log id = s.log id ↔ (historyMachine uuid baseline).Permits (QuietOn id) s actions) := by
  induction actions generalizing s with
  | nil =>
      cases ran
      exact ⟨le_rfl, fun _ => trivial, fun _ => rfl⟩
  | cons action rest ih =>
      obtain ⟨middle, stepped, tail⟩ := Option.bind_eq_some_iff.mp ran
      obtain ⟨grown, same⟩ := ih tail
      have only (other : HistoryState) (also : (historyMachine uuid baseline).step s action =
          some other) :
          middle = other := by
        rw [stepped] at also
        exact Option.some.inj also
      cases @log_step _ _ _ _ _ id stepped with
      | quiet silent equal =>
          rw [← equal]
          refine ⟨grown,
            same.trans ⟨fun permitted => ⟨silent, fun other also => only other also ▸ permitted⟩,
            fun permitted => permitted.2 middle stepped⟩⟩
      | grows loud longer =>
          refine ⟨longer.le.trans grown, fun equal => ?_, fun permitted => absurd permitted.1 loud⟩
          rw [equal] at grown
          exact absurd longer (Nat.not_lt.mpr grown)

end Log

/-- What a numbered call read is known, wherever the call has come. -/
structure Carries (number : Nat) (load : LoadCall) (s : HistoryState) : Prop where
  begun : number < s.nextCall
  waiting : ∀ other, s.calls number = some other → other = load
  inside : ∀ other, s.opener = some (number, other) → other = load

/-- Numbers that are not given out yet name no call. -/
def NumbersNew (s : HistoryState) : Prop :=
  (∀ number load, s.calls number = some load → number < s.nextCall) ∧
    ∀ number load, s.opener = some (number, load) → number < s.nextCall

section Calls
variable {uuid : UuidCrate} {baseline : AgentConfig} {s t : HistoryState} {action : HistoryAction}
  {number : Nat}
  {load : LoadCall}

/-- What a step does to the calls of `load_session`. -/
inductive CallMove (s t : HistoryState) : Prop where
  | stay (calls : t.calls = s.calls) (next : t.nextCall = s.nextCall)
      (opener : t.opener = s.opener ∨ t.opener = none)
  | begin (load : LoadCall) (calls : t.calls = Function.update s.calls s.nextCall (some load))
      (next : t.nextCall = s.nextCall + 1) (opener : t.opener = s.opener)
  | enter (number : Nat) (load : LoadCall) (waiting : s.calls number = some load)
      (calls : t.calls = Function.update s.calls number none) (next : t.nextCall = s.nextCall)
      (opener : t.opener = some (number, load))

/-- A step of the sessions leaves the calls that load. -/
theorem callMove_follow (s : HistoryState) (agent : AgentState) : CallMove s (s.follow agent) := by
  unfold HistoryState.follow
  split
  · exact .stay rfl rfl (.inr rfl)
  · exact .stay rfl rfl (.inl rfl)

/-- Recording a message leaves the calls that load. -/
theorem callMove_record (s : HistoryState) (number : Nat) (id : Uuid) (message : Message)
    (outcome : RecordOutcome) : CallMove s (s.record number id message outcome) := by
  unfold HistoryState.record
  dsimp only
  split
  · exact .stay rfl rfl (.inl rfl)
  · cases outcome <;> exact .stay rfl rfl (.inl rfl)

/-- What a step can do to the calls that load. -/
theorem call_step (stepped : historyStep uuid baseline s action = some t) : CallMove s t := by
  cases action with
  | agent action =>
      simp only [historyStep] at stepped
      split at stepped
      · obtain ⟨agent, _, rfl⟩ := Option.map_eq_some_iff.mp stepped
        exact callMove_follow s agent
      · cases stepped
  | readHistory sessionId =>
      simp only [historyStep] at stepped
      split at stepped
      · cases stepped
        exact .stay rfl rfl (.inl rfl)
      · split at stepped
        · cases stepped
          exact .begin _ rfl rfl rfl
        · cases stepped
          exact .stay rfl rfl (.inl rfl)
  | enterLoad call config =>
      simp only [historyStep] at stepped
      split at stepped
      · cases stepped
      · next load waiting =>
        obtain ⟨agent, _, entered⟩ := Option.bind_eq_some_iff.mp stepped
        split at entered
        · cases entered
          exact .enter call load waiting rfl rfl rfl
        · cases entered
  | prepare number resolved built =>
      simp only [historyStep] at stepped
      split at stepped
      · cases stepped
      · obtain ⟨agent, _, rfl⟩ := Option.map_eq_some_iff.mp stepped
        exact .stay rfl rfl (.inl rfl)
  | record number message outcome =>
      obtain ⟨turn, _, rfl⟩ := Option.map_eq_some_iff.mp stepped
      exact callMove_record s number turn.chatId message outcome
  | save number written =>
      obtain ⟨turn, _, rfl⟩ := Option.map_eq_some_iff.mp stepped
      unfold HistoryState.save
      dsimp only
      split
      · exact .stay rfl rfl (.inl rfl)
      · exact .stay rfl rfl (.inl rfl)

/-- A call that carries a history carries it on, or has ended. -/
theorem Carries.step (carries : Carries number load s)
    (stepped : historyStep uuid baseline s action = some t) :
    Carries number load t := by
  cases call_step stepped with
  | stay calls next opener =>
      refine ⟨next ▸ carries.begun, calls ▸ carries.waiting, fun other holds => ?_⟩
      rcases opener with same | released
      · exact carries.inside other (same ▸ holds)
      · rw [released] at holds
        cases holds
  | begin fresh calls next opener =>
      refine ⟨?_, fun other waits => ?_, opener ▸ carries.inside⟩
      · rw [next]
        exact Nat.lt_succ_of_lt carries.begun
      · rw [calls, Function.update_of_ne carries.begun.ne] at waits
        exact carries.waiting other waits
  | enter entered moved waiting calls next opener =>
      refine ⟨next ▸ carries.begun, fun other waits => ?_, fun other holds => ?_⟩
      · rw [calls] at waits
        by_cases own : number = entered
        · rw [own, Function.update_self] at waits
          cases waits
        · rw [Function.update_of_ne own] at waits
          exact carries.waiting other waits
      · rw [opener] at holds
        cases holds
        exact carries.waiting _ waiting

/-- Every step leaves the next number unused. -/
theorem NumbersNew.step (fresh : NumbersNew s)
    (stepped : historyStep uuid baseline s action = some t) :
    NumbersNew t := by
  cases call_step stepped with
  | stay calls next opener =>
      rw [NumbersNew, calls, next]
      refine ⟨fresh.1, fun number load holds => ?_⟩
      rcases opener with same | released
      · exact fresh.2 number load (same ▸ holds)
      · rw [released] at holds
        cases holds
  | begin begun calls next opener =>
      rw [NumbersNew, calls, next, opener]
      refine ⟨fun number load waits => ?_, fun number load holds =>
        Nat.lt_succ_of_lt (fresh.2 number load holds)⟩
      by_cases own : number = s.nextCall
      · exact own ▸ Nat.lt_succ_self _
      · rw [Function.update_of_ne own] at waits
        exact Nat.lt_succ_of_lt (fresh.1 number load waits)
  | enter entered moved waiting calls next opener =>
      rw [NumbersNew, calls, next, opener]
      refine ⟨fun number load waits => ?_, fun number load holds => ?_⟩
      · by_cases own : number = entered
        · rw [own, Function.update_self] at waits
          cases waits
        · rw [Function.update_of_ne own] at waits
          exact fresh.1 number load waits
      · cases holds
        exact fresh.1 _ _ waiting

/-- In every run the next number is unused. -/
theorem NumbersNew.of_reachable (reached : (historyMachine uuid baseline).Reachable s) :
    NumbersNew s := by
  refine reached.invariant ?_ fun _ _ _ before _ stepped => before.step stepped
  rintro s ⟨_, calls, opener, _⟩
  refine ⟨fun number load waits => ?_, fun number load holds => ?_⟩
  · rw [calls] at waits
    cases waits
  · rw [opener] at holds
    cases holds

/-- In every run from its read on, a call carries its history until it ends. -/
theorem Carries.run {actions : List HistoryAction} (carries : Carries number load s)
    (ran : (historyMachine uuid baseline).exec s actions = some t) : Carries number load t :=
  (Machine.exec_runs (Machine.permits_free _ s actions) ran).preserves carries
      fun _ _ _ before _ stepped =>
    before.step stepped

/-- The call that holds the write lock returns with the messages that it read. -/
theorem shown_of_check {opening : Opening} (entered : s.opener = some (number, load))
    (current : s.agent.opening = some opening) (stage : opening.stage = .result)
    (checked : historyStep uuid baseline s (.agent .continueOpening) = some t)
    {messages : List Message}
    (shown : t.shown number = some (.ok messages)) : messages = load.messages ∧ t.log = s.log := by
  have returned : agentStep uuid baseline s.agent .continueOpening =
      some (continueOpening s.agent opening) := by
    rw [agentStep, current, Option.map_some]
  have closed : (continueOpening s.agent opening).opening = none := by rw [continueOpening, stage]
  simp only [historyStep, Action.isApart, if_true, returned, Option.map_some,
    Option.some.injEq] at checked
  subst checked
  refine ⟨?_, follow_log s _⟩
  rw [HistoryState.follow, entered, closed] at shown
  simp only [Function.update_self] at shown
  obtain ⟨result, _, mapped⟩ := Option.map_eq_some_iff.mp shown
  cases result with
  | error error => cases mapped
  | ok opened =>
      cases mapped
      rfl

/-- A call of `load_session` reads its history, any steps follow, and then it checks under the write
lock that no turn is in flight. If it returns messages, they are the log at the moment of the check
exactly when no step in between put anything into the log of its conversation. -/
theorem loaded_history_current {first second : HistoryState} {sessionId : String} {id : Uuid}
    {actions : List HistoryAction} {opening : Opening} {messages : List Message}
    (reached : (historyMachine uuid baseline).Reachable s)
    (parsed : uuid.parseStr sessionId = some id) (saved : s.agent.saved id = true)
    (read : historyStep uuid baseline s (.readHistory sessionId) = some first)
    (ran : (historyMachine uuid baseline).exec first actions = some second)
    (entered : second.opener = some (s.nextCall, load))
    (current : second.agent.opening = some opening) (stage : opening.stage = .result)
    (checked : historyStep uuid baseline second (.agent .continueOpening) = some t)
    (shown : t.shown s.nextCall = some (.ok messages)) :
    messages = second.log id ↔
      (historyMachine uuid baseline).Permits (QuietOn id) first actions := by
  simp only [historyStep, parsed, saved, if_true, Option.some.injEq] at read
  have carries : Carries s.nextCall ⟨sessionId, id, s.log id⟩ first := by
    subst read
    refine ⟨Nat.lt_succ_self _, fun other waits => ?_, fun other holds => ?_⟩
    · simp only [Function.update_self] at waits
      exact (Option.some.inj waits).symm
    · exact absurd ((NumbersNew.of_reachable reached).2 _ _ holds) (Nat.lt_irrefl _)
  have same := (carries.run ran).inside load entered
  have told := (shown_of_check entered current stage checked shown).1
  have kept : first.log id = s.log id := by rw [← read]
  rw [told, same, ← kept, ← (log_run ran id).2]
  exact eq_comm

end Calls

/-- A runtime before its first call. -/
def emptyHistory : HistoryState :=
  ⟨emptyState, fun _ => [], fun _ => ⟨[], false⟩, fun _ => none, 0, none, fun _ => none⟩

/-- A turn of the sample session that records one message. -/
def wholeTurn (number : Nat) (message : Message) : List HistoryAction :=
  [.agent (.prompt number sampleText), .agent (.acquireLease number true),
    .prepare number true true, .record number message .whole, .agent (.finish number)]

/-- A conversation with one message, in a live session. -/
def firstTurn : List HistoryAction :=
  [.agent (.newSession sampleId sampleConfig), .agent .continueOpening, .agent .continueOpening,
    .agent .continueOpening] ++ wholeTurn 0 (.ofUser "first")

/-- The session is loaded, up to its check. -/
def enterCall : List HistoryAction :=
  [.enterLoad 0 sampleConfig, .agent .continueOpening, .agent .continueOpening]

theorem emptyHistory_start : (historyMachine Uuid.crate sampleConfig).start emptyHistory :=
  ⟨emptyState_start, fun _ => rfl, rfl, fun _ _ => rfl⟩

/-- Without a turn in between, the messages are those of the log. -/
theorem loaded_history_sample : ∃ second t messages,
    historyStep Uuid.crate sampleConfig second (.agent .continueOpening) = some t ∧
    t.shown 0 = some (.ok messages) ∧ messages = second.log sampleId := by
  obtain ⟨s, first, second, t, load, messages, built, read, ran, checked, saved, number, entered,
      current, shown⟩ :
      ∃ s first second t load messages,
        (historyMachine Uuid.crate sampleConfig).exec emptyHistory firstTurn = some s ∧
        historyStep Uuid.crate sampleConfig s (.readHistory sampleText) = some first ∧
        (historyMachine Uuid.crate sampleConfig).exec first enterCall = some second ∧
        historyStep Uuid.crate sampleConfig second (.agent .continueOpening) = some t ∧
        s.agent.saved sampleId = true ∧ s.nextCall = 0 ∧ second.opener = some (0, load) ∧
        second.agent.opening = some ⟨sampleText, true, .result⟩ ∧ t.shown 0 = some (.ok messages) :=
    ⟨_, _, _, _, _, _, rfl, rfl, rfl, rfl, rfl, rfl, rfl, rfl, rfl⟩
  have quiet : ∀ action ∈ enterCall, ∀ s, QuietOn sampleId s action := by
    intro action member s
    rcases List.mem_cons.mp member with rfl | later
    · trivial
    · rcases List.mem_cons.mp later with rfl | last
      · trivial
      · rw [List.mem_singleton.mp last]
        trivial
  have same :=
    (loaded_history_current (Machine.reachable_of_exec emptyHistory_start built) rfl saved read ran
    (number ▸ entered) current rfl checked (number ▸ shown)).mpr
      (Machine.permits_of_forall quiet first)
  exact ⟨second, t, messages, checked, shown, same⟩

/-- A whole turn between the reading and the check is missing from what is shown. -/
theorem loaded_history_stale : ∃ s, (historyMachine Uuid.crate sampleConfig).exec emptyHistory
      (firstTurn ++ [.readHistory sampleText] ++ wholeTurn 1 (.ofUser "second") ++ enterCall ++
        [.agent .continueOpening]) = some s ∧
    s.shown 0 = some (.ok [.ofUser "first"]) ∧
      s.log sampleId = [.ofUser "first", .ofUser "second"] :=
  ⟨_, rfl, rfl, rfl⟩

end Openheim.Runtime
