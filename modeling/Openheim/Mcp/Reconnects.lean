import Mathlib.Data.List.Nodup
import Openheim.Mcp.Client

/-
This file shows when the reconnects of a client are single and backed off, for calls that are
interleaved in any way.
-/

namespace Openheim.Mcp

namespace McpEvent

/-- The caller whose attempt runs. -/
def running : List McpEvent → Option Nat
  | [] => none
  | .started _ call :: _ => some call
  | .connected _ _ :: _ | .failed _ _ _ :: _ | .abandoned _ _ :: _ => none
  | _ :: earlier => running earlier

/-- The connection that is open. -/
def live : List McpEvent → Option Nat
  | [] => some 0
  | .connected _ service :: _ => some service
  | .lost _ :: _ => none
  | _ :: earlier => live earlier

/-- When an attempt ended without a connection. -/
def endedAt : McpEvent → Option Instant
  | .failed time _ _ | .abandoned time _ => some time
  | _ => none

/-- The back-off of every attempt that ended without a connection is over. -/
def BackedOff (now : Instant) (history : List McpEvent) : Prop :=
  ∀ event ∈ history, ∀ ended ∈ event.endedAt, ended + reconnectBackoff ≤ now

/-- What may follow a history. An attempt starts only when no other one runs, the connection is lost
and every back-off is over; a caller uses the open connection, and fails at once only within a
back-off, with the error that began it; and a call is sent once. -/
def Follows (history : List McpEvent) : McpEvent → Prop
  | .started time _ => running history = none ∧ live history = none ∧ BackedOff time history
  | .connected call _ | .failed _ call _ | .abandoned _ call => running history = some call
  | .lost service | .uses _ service => live history = some service
  | .failedAtOnce time _ why => live history = none ∧
      ∃ ended call, .failed ended call why ∈ history ∧ time < ended + reconnectBackoff
  | .sent call _ => ∀ service, .sent call service ∉ history

/-- Every event follows what was before. -/
def Orderly : List McpEvent → Prop
  | [] => True
  | event :: earlier => Follows earlier event ∧ Orderly earlier

end McpEvent

open McpEvent

namespace McpClient
variable {serverName : String} {toolTimeout : Nat} {s t : McpClient}

/-- The history is orderly. While no attempt runs, the first waiting caller goes on at once: with
the connection if it is open, and with an error if it is not and a back-off is not over. -/
structure SingleAndBackedOff (serverName : String) (toolTimeout : Nat) (s : McpClient) : Prop where
  orderly : Orderly s.history
  uses : ∀ number rest service, s.queue = number :: rest → running s.history = none →
    live s.history = some service → ∃ t deadline, s.step serverName toolTimeout .acquire = some t ∧
      t.calls number = .ready deadline service ∧ t.history = .uses number service :: s.history
  fails : ∀ number rest, s.queue = number :: rest → running s.history = none →
    live s.history = none → ¬ BackedOff s.now s.history → ∃ t why,
      s.step serverName toolTimeout .acquire = some t ∧
      t.calls number = .returned ∧ t.history = .failedAtOnce s.now number why :: s.history

/-- No call ends at its timeout, or is dropped, while its attempt to reconnect runs. -/
def FinishesAttempts (s : McpClient) : McpAction → Prop
  | .expire number | .cancel number => ∀ deadline limit, s.calls number ≠ .attempting deadline limit
  | _ => True

/-- The history agrees with the connection and with the last failed attempt. -/
structure Recorded (s : McpClient) : Prop where
  orderly : Orderly s.history
  running : running s.history = s.holder
  live : live s.history = if s.closed then none else some s.service
  backoff : ∀ event ∈ s.history, ∀ ended ∈ event.endedAt, ended + reconnectBackoff ≤ s.now ∨
    s.holder = none ∧ ∃ time why, s.failedReconnect = some (time, why) ∧ ended ≤ time
  remembered : ∀ time why, s.failedReconnect = some (time, why) → ∃ call,
    .failed time call why ∈ s.history

/-- The call was sent, or will not be sent any more. -/
def CallStage.isPastSending : CallStage → Bool
  | .sent _ _ | .returned => true
  | _ => false

/-- The lock is held by the caller that tries to reconnect, those in the queue wait for it, and
calls that were sent are past it. -/
structure Queued (s : McpClient) : Prop where
  attempting : ∀ number deadline limit, s.calls number = .attempting deadline limit →
    s.holder = some number
  waiting : ∀ number ∈ s.queue, ∃ deadline, s.calls number = .waiting deadline
  distinct : s.queue.Nodup
  sent : ∀ number service, .sent number service ∈ s.history →
    CallStage.isPastSending (s.calls number) = true

/-- One call changes its stage, and the queue and the lock accordingly. -/
theorem Queued.move (inv : Queued s) {number : Nat} {stage : CallStage} {after : McpClient}
    (calls : after.calls = Function.update s.calls number stage)
    (own : ∀ deadline limit, stage = .attempting deadline limit → after.holder = some number)
    (others : ∀ other, other ≠ number → s.holder = some other → after.holder = some other)
    (queue : ∀ other ∈ after.queue, other ∈ s.queue ∧ other ≠ number ∨
      other = number ∧ ∃ deadline, stage = .waiting deadline)
    (distinct : after.queue.Nodup)
    (sent : ∀ other service, .sent other service ∈ after.history →
      .sent other service ∈ s.history ∨ other = number)
    (past : (∃ service, .sent number service ∈ after.history) →
      CallStage.isPastSending stage = true) :
    Queued after := by
  refine ⟨fun other deadline limit at_ => ?_, fun other member => ?_, distinct,
    fun other service member => ?_⟩
  · rw [calls, Function.update_apply] at at_
    split at at_
    · next same => exact same ▸ own deadline limit at_
    · next different => exact others other different (inv.attempting other deadline limit at_)
  · rw [calls]
    rcases queue other member with ⟨before, different⟩ | ⟨rfl, deadline, same⟩
    · rw [Function.update_of_ne different]
      exact inv.waiting other before
    · exact ⟨deadline, by rw [Function.update_self, same]⟩
  · rw [calls, Function.update_apply]
    split
    · next same => exact past ⟨service, same ▸ member⟩
    · next different =>
        exact inv.sent other service ((sent other service member).resolve_right different)

/-- A caller that goes on or fails at once, or a call that is sent, changes nothing else. -/
theorem Recorded.quiet (inv : Recorded s) {event : McpEvent} {calls : Nat → CallStage}
    {queue : List Nat} (follows : Follows s.history event)
    (quiet : (∃ call service, event = .uses call service ∨ event = .sent call service) ∨
      ∃ time call why, event = .failedAtOnce time call why) :
    Recorded ({ s with calls, queue }.record event) := by
  have same : McpEvent.running (event :: s.history) = McpEvent.running s.history ∧
      McpEvent.live (event :: s.history) = McpEvent.live s.history ∧ event.endedAt = none := by
    obtain ⟨call, service, rfl | rfl⟩ | ⟨time, call, why, rfl⟩ := quiet
    · exact ⟨rfl, rfl, rfl⟩
    · exact ⟨rfl, rfl, rfl⟩
    · exact ⟨rfl, rfl, rfl⟩
  obtain ⟨running, live, ended⟩ := same
  refine ⟨⟨follows, inv.orderly⟩, running.trans inv.running, live.trans inv.live, ?_,
    fun time why present => ?_⟩
  · refine List.forall_mem_cons.mpr ⟨fun time at_ => ?_, inv.backoff⟩
    rw [ended] at at_
    cases at_
  · obtain ⟨call, member⟩ := inv.remembered time why present
    exact ⟨call, List.mem_cons_of_mem _ member⟩

/-- An attempt starts when no other runs, the connection is lost and
the last failure is long ago. -/
theorem Recorded.started (inv : Recorded s) (free : s.holder = none) (closed : s.closed = true)
    (over_ : ∀ time why, s.failedReconnect = some (time, why) → time + reconnectBackoff ≤ s.now)
    (number : Nat) (deadline : Instant) : Recorded (s.startReconnect number deadline) := by
  have passed : BackedOff s.now s.history := by
    intro event member ended at_
    rcases inv.backoff event member ended at_ with passed | ⟨_, time, why, present, before⟩
    · exact passed
    · exact Nat.le_trans (Nat.add_le_add_right before _) (over_ time why present)
  have lost : McpEvent.live s.history = none := by rw [inv.live, closed, if_pos rfl]
  refine ⟨⟨⟨inv.running.trans free, lost, passed⟩, inv.orderly⟩, rfl, inv.live, ?_,
    fun time why present => ?_⟩
  · refine List.forall_mem_cons.mpr ⟨fun time at_ => ?_, fun event member ended at_ => ?_⟩
    · cases at_
    · exact .inl (passed event member ended at_)
  · obtain ⟨call, member⟩ := inv.remembered time why present
    exact ⟨call, List.mem_cons_of_mem _ member⟩

/-- While an attempt runs, every back-off is over. -/
theorem Recorded.passed (inv : Recorded s) {number : Nat} (holds : s.holder = some number) :
    BackedOff s.now s.history := by
  intro event member ended at_
  refine (inv.backoff event member ended at_).resolve_right fun ⟨free, _⟩ => ?_
  rw [holds] at free
  cases free

/-- A reconnect that succeeds is recorded. -/
theorem Recorded.reconnected (inv : Recorded s) {number : Nat} (holds : s.holder = some number)
    (deadline : Instant) :
    Recorded (s.reconnected number deadline) := by
  refine ⟨⟨rfl, inv.running.trans holds, inv.orderly⟩, rfl, rfl, ?_, nofun⟩
  refine List.forall_mem_cons.mpr ⟨nofun,
    List.forall_mem_cons.mpr ⟨nofun, fun event member ended at_ => ?_⟩⟩
  exact .inl (inv.passed holds event member ended at_)

/-- A reconnect that fails is recorded with its time. -/
theorem Recorded.reconnectFailed (inv : Recorded s) {number : Nat} (holds : s.holder = some number)
    (reason : String) :
    Recorded (s.reconnectFailed serverName number reason) := by
  refine ⟨⟨inv.running.trans holds, inv.orderly⟩, rfl, inv.live, ?_, fun time why present => ?_⟩
  · refine List.forall_mem_cons.mpr ⟨fun time at_ => ?_, fun event member ended at_ => ?_⟩
    · cases at_
      exact .inr ⟨rfl, _, _, rfl, Nat.le_refl _⟩
    · exact .inl (inv.passed holds event member ended at_)
  · cases present
    exact ⟨number, List.mem_cons_self⟩

/-- A connection that is lost is recorded. -/
theorem Recorded.lose (inv : Recorded s) (opened : s.closed = false) :
    Recorded ({ s with closed := true }.record (.lost s.service)) := by
  have live : McpEvent.live s.history = some s.service := by
    rw [inv.live, opened]
    rfl
  refine ⟨⟨live, inv.orderly⟩, inv.running, rfl, ?_, fun time why present => ?_⟩
  · exact List.forall_mem_cons.mpr ⟨nofun, inv.backoff⟩
  · obtain ⟨call, member⟩ := inv.remembered time why present
    exact ⟨call, List.mem_cons_of_mem _ member⟩

/-- Time that passes changes no record. -/
theorem Recorded.tick (inv : Recorded s) (elapsed : Nat) :
    Recorded { s with now := s.now + elapsed } := by
  refine ⟨inv.orderly, inv.running, inv.live, fun event member ended at_ => ?_, inv.remembered⟩
  exact (inv.backoff event member ended at_).imp_left fun passed => Nat.le_add_right_of_le passed

theorem lt_add_of_elapsed {now time span : Nat} (within : now - time < span) :
    now < time + span := by omega

theorem add_le_of_elapsed {now time span : Nat} (positive : 0 < span)
    (passed : ¬ now - time < span) :
    time + span ≤ now := by omega

/-- What a caller does that got the lock. -/
theorem liveService_cases (s : McpClient) (number : Nat) (deadline : Instant) :
    (s.closed = false ∧ s.liveService number deadline =
      (s.setStage number (.ready deadline s.service)).record (.uses number s.service)) ∨
    (s.closed = true ∧ ∃ time why, s.failedReconnect = some (time, why) ∧
      s.now < time + reconnectBackoff ∧
      s.liveService number deadline =
        (s.setStage number .returned).record (.failedAtOnce s.now number why)) ∨
    (s.closed = true ∧
      (∀ time why, s.failedReconnect = some (time, why) → time + reconnectBackoff ≤ s.now) ∧
      s.liveService number deadline = s.startReconnect number deadline) := by
  unfold liveService
  cases closed : s.closed with
  | false => exact .inl ⟨rfl, rfl⟩
  | true =>
      rw [Bool.not_true, if_neg Bool.false_ne_true]
      cases failed : s.failedReconnect with
      | none => exact .inr (.inr ⟨rfl, nofun, rfl⟩)
      | some failure =>
          obtain ⟨time, why⟩ := failure
          dsimp only
          split
          · next within => exact .inr (.inl ⟨rfl, time, why, rfl, lt_add_of_elapsed within, rfl⟩)
          · next passed =>
            refine .inr (.inr ⟨rfl, ?_, rfl⟩)
            rintro _ _ ⟨⟩
            exact add_le_of_elapsed (by decide) passed

/-- The record does not depend on where the calls stand. -/
theorem Recorded.requeue (inv : Recorded s) (queue : List Nat) (calls : Nat → CallStage) :
    Recorded { s with queue, calls } :=
  ⟨inv.orderly, inv.running, inv.live, inv.backoff, inv.remembered⟩

/-- The first caller in the queue gets the lock. -/
theorem Recorded.acquire (inv : Recorded s) (free : s.holder = none) (number : Nat)
    (rest : List Nat)
    (deadline : Instant) : Recorded ({ s with queue := rest }.liveService number deadline) := by
  obtain ⟨opened, same⟩ | ⟨closed, time, why, failed, within, same⟩ | ⟨closed, passed, same⟩ :=
    liveService_cases { s with queue := rest } number deadline
  · rw [same]
    refine inv.quiet ?_ (.inl ⟨_, _, .inl rfl⟩)
    rw [Follows, inv.live, show s.closed = false from opened]
    rfl
  · rw [same]
    obtain ⟨call, member⟩ := inv.remembered time why failed
    refine inv.quiet ⟨?_, time, call, member, within⟩ (.inr ⟨_, _, _, rfl⟩)
    rw [inv.live, show s.closed = true from closed]
    rfl
  · rw [same]
    exact (inv.requeue rest s.calls).started free closed passed number deadline

/-- The first call of the queue takes the lock. -/
theorem Queued.acquire (inv : Queued s) (free : s.holder = none) {number : Nat} {rest : List Nat}
    (first : s.queue = number :: rest) {deadline : Instant}
    (at_ : s.calls number = .waiting deadline) :
    Queued ({ s with queue := rest }.liveService number deadline) := by
  have distinct := inv.distinct
  rw [first] at distinct
  obtain ⟨fresh, distinct⟩ := List.nodup_cons.mp distinct
  have behind : ∀ other ∈ rest, other ∈ s.queue ∧ other ≠ number := by
    refine fun other member => ⟨first ▸ List.mem_cons_of_mem _ member, ?_⟩
    rintro rfl
    exact fresh member
  have unsent (service : Nat) : .sent number service ∉ s.history := by
    intro member
    have past := inv.sent number service member
    rw [at_] at past
    cases past
  obtain ⟨-, same⟩ | ⟨-, time, why, -, -, same⟩ | ⟨-, -, same⟩ :=
    liveService_cases { s with queue := rest } number deadline
  · rw [same]
    refine inv.move rfl nofun (fun other _ holds => holds) (fun other member =>
      .inl (behind other member)) distinct
      (fun other service member => .inl ((List.mem_cons.mp member).resolve_left nofun)) ?_
    rintro ⟨service, member⟩
    exact absurd ((List.mem_cons.mp member).resolve_left nofun) (unsent service)
  · rw [same]
    exact inv.move rfl nofun (fun other _ holds => holds) (fun other member =>
      .inl (behind other member)) distinct
      (fun other service member => .inl ((List.mem_cons.mp member).resolve_left nofun)) fun _ => rfl
  · rw [same]
    refine inv.move rfl (fun _ _ _ => rfl) (fun other _ holds => ?_)
      (fun other member => .inl (behind other member))
      distinct (fun other service member => .inl ((List.mem_cons.mp member).resolve_left nofun)) ?_
    · rw [free] at holds
      cases holds
    · rintro ⟨service, member⟩
      exact absurd ((List.mem_cons.mp member).resolve_left nofun) (unsent service)

/-- A call that was not sent yet is not in the history as sent. -/
theorem Queued.unsent (inv : Queued s) {number : Nat}
    (before : CallStage.isPastSending (s.calls number) = false)
    (service : Nat) : .sent number service ∉ s.history := by
  intro member
  rw [inv.sent number service member] at before
  cases before

/-- Only callers that wait are in the queue. -/
theorem Queued.not_mem (inv : Queued s) {number : Nat}
    (other : ∀ deadline, s.calls number ≠ .waiting deadline) :
    ∀ waiting ∈ s.queue, waiting ∈ s.queue ∧ waiting ≠ number := by
  refine fun waiting member => ⟨member, ?_⟩
  rintro rfl
  obtain ⟨deadline, at_⟩ := inv.waiting waiting member
  exact other deadline at_

/-- A new call goes to the end of the queue. -/
theorem Queued.callTool (inv : Queued s) {number : Nat} (fresh : s.calls number = .fresh)
    (deadline : Instant) :
    Queued ({ s with queue := s.queue ++ [number] }.setStage number (.waiting deadline)) := by
  have idle : ∀ deadline, s.calls number ≠ .waiting deadline := by
    rw [fresh]
    exact nofun
  have early : CallStage.isPastSending (s.calls number) = false := by rw [fresh]; rfl
  have outside := inv.not_mem idle
  refine inv.move rfl nofun (fun other _ holds => holds) (fun other member => ?_) ?_
    (fun other service member => .inl member) ?_
  · rcases List.mem_append.mp member with before | last
    · exact .inl (outside other before)
    · exact .inr ⟨List.mem_singleton.mp last, _, rfl⟩
  · refine List.nodup_append.mpr ⟨inv.distinct, List.nodup_singleton _,
      fun one first two last => ?_⟩
    rw [List.mem_singleton.mp last]
    exact (outside one first).2
  · rintro ⟨service, member⟩
    exact absurd member (inv.unsent early service)

/-- Sending a call leaves the queue as it is. -/
theorem Queued.send (inv : Queued s) {number service : Nat} {deadline : Instant}
    (at_ : s.calls number = .ready deadline service) :
    Queued ((s.setStage number (.sent deadline service)).record (.sent number service)) := by
  have idle : ∀ deadline, s.calls number ≠ .waiting deadline := by
    rw [at_]
    exact nofun
  refine inv.move rfl nofun (fun other _ holds => holds) (fun other member =>
    .inl (inv.not_mem idle other member))
    inv.distinct (fun other service member => ?_) fun _ => rfl
  rcases List.mem_cons.mp member with same | before
  · cases same
    exact .inr rfl
  · exact .inl before

/-- The attempt of a call ends, and its caller gives the lock back. -/
theorem Queued.release (inv : Queued s) {number : Nat} {deadline limit : Instant}
    (at_ : s.calls number = .attempting deadline limit) {stage : CallStage} {after : McpClient}
    (calls : after.calls = Function.update s.calls number stage) (queue : after.queue = s.queue)
    (own : ∀ deadline limit, stage ≠ .attempting deadline limit)
    (sent : ∀ other service, .sent other service ∈ after.history →
      .sent other service ∈ s.history) :
    Queued after := by
  have holds := inv.attempting number deadline limit at_
  have early : CallStage.isPastSending (s.calls number) = false := by rw [at_]; rfl
  have fresh := inv.unsent early
  refine inv.move calls (fun deadline limit same => absurd same (own deadline limit))
    (fun other different also => ?_)
    (fun other member => .inl ?_) (queue ▸ inv.distinct) (fun other service member =>
      .inl (sent other service member))
    ?_
  · rw [holds] at also
    exact absurd (Option.some.inj also).symm different
  · rw [queue] at member
    refine inv.not_mem (fun deadline waiting => ?_) other member
    rw [at_] at waiting
    cases waiting
  · rintro ⟨service, member⟩
    exact absurd (sent number service member) (fresh service)

/-- A call that is not at an attempt leaves. -/
theorem Queued.leave (inv : Queued s) (number : Nat) {after : McpClient}
    (same : after = { s with queue := s.queue.filter fun other => other ≠ number }.setStage number
      .returned) :
    Queued after := by
  rw [same]
  refine inv.move rfl nofun (fun other _ holds => holds) (fun other member => .inl ?_)
    (inv.distinct.sublist List.filter_sublist) (fun other service member => .inl member) fun _ =>
      rfl
  obtain ⟨before, different⟩ := List.mem_filter.mp member
  exact ⟨before, by simpa using different⟩

/-- A call that attempts nothing leaves only the queue. -/
theorem leave_of_not_attempting {number : Nat}
    (other : ∀ deadline limit, s.calls number ≠ .attempting deadline limit) :
    s.leave number = { s with queue := s.queue.filter fun other => other ≠ number }.setStage number
      .returned := by
  unfold McpClient.leave
  split
  · next deadline limit at_ => exact absurd at_ (other deadline limit)
  · rfl

/-- Every step keeps the invariants if no call ends while its attempt runs. -/
theorem invariant_step (recorded : Recorded s) (queued : Queued s) {action : McpAction}
    (permitted : s.FinishesAttempts action)
    (stepped : s.step serverName toolTimeout action = some t) :
    Recorded t ∧ Queued t := by
  have leaves {number : Nat} (other : ∀ deadline limit, s.calls number ≠ .attempting deadline limit)
      (left : s.leave number = t) : Recorded t ∧ Queued t := by
    have same := left.symm.trans (leave_of_not_attempting other)
    refine ⟨?_, queued.leave number same⟩
    rw [same]
    exact recorded.requeue _ _
  cases action with
  | callTool number =>
      simp only [step] at stepped
      split at stepped
      · next fresh =>
        cases stepped
        exact ⟨recorded.requeue _ _, queued.callTool fresh _⟩
      · cases stepped
  | acquire =>
      simp only [step] at stepped
      split at stepped
      · next number rest free first =>
        split at stepped
        · next deadline at_ =>
          cases stepped
          exact ⟨recorded.acquire free number rest deadline, queued.acquire free first at_⟩
        · cases stepped
      · cases stepped
  | connect number =>
      simp only [step] at stepped
      split at stepped
      · next deadline limit at_ =>
        cases stepped
        refine ⟨recorded.reconnected (queued.attempting number _ _ at_) deadline,
          queued.release at_ rfl rfl nofun fun other service member => ?_⟩
        exact (List.mem_cons.mp ((List.mem_cons.mp member).resolve_left nofun)).resolve_left nofun
      · cases stepped
  | refuse number reason =>
      simp only [step] at stepped
      split at stepped
      · next deadline limit at_ =>
        cases stepped
        exact ⟨recorded.reconnectFailed (queued.attempting number _ _ at_) reason,
          queued.release at_ rfl rfl nofun
          fun other service member => (List.mem_cons.mp member).resolve_left nofun⟩
      · cases stepped
  | overdue number =>
      simp only [step] at stepped
      split at stepped
      · next deadline limit at_ =>
        split at stepped
        · cases stepped
          exact ⟨recorded.reconnectFailed (queued.attempting number _ _ at_) _,
            queued.release at_ rfl rfl nofun
            fun other service member => (List.mem_cons.mp member).resolve_left nofun⟩
        · cases stepped
      · cases stepped
  | send number =>
      simp only [step] at stepped
      split at stepped
      · next deadline service at_ =>
        cases stepped
        have early : CallStage.isPastSending (s.calls number) = false := by rw [at_]; rfl
        exact ⟨recorded.quiet (queued.unsent early) (.inl ⟨_, _, .inr rfl⟩), queued.send at_⟩
      · cases stepped
  | answer number =>
      simp only [step] at stepped
      split at stepped
      · next deadline service at_ =>
        cases stepped
        refine ⟨recorded.requeue _ _, queued.move rfl nofun (fun other _ holds => holds)
          (fun other member => .inl (queued.not_mem ?_ other member)) queued.distinct
          (fun other service member => .inl member) fun _ => rfl⟩
        rw [at_]
        exact nofun
      · cases stepped
  | expire number =>
      simp only [step] at stepped
      split at stepped
      · exact leaves permitted (Option.some.inj stepped)
      · cases stepped
  | cancel number =>
      simp only [step] at stepped
      split at stepped
      · exact leaves permitted (Option.some.inj stepped)
      · cases stepped
  | lose =>
      simp only [step] at stepped
      split at stepped
      · cases stepped
      · next opened =>
        cases stepped
        refine ⟨recorded.lose (by simpa using opened), queued.attempting, queued.waiting,
          queued.distinct, fun number service member =>
            queued.sent number service ((List.mem_cons.mp member).resolve_left nofun)⟩
  | tick elapsed =>
      cases stepped
      exact ⟨recorded.tick elapsed, queued.attempting, queued.waiting, queued.distinct, queued.sent⟩

/-- At the start nothing is recorded and no call waits. -/
theorem invariant_start (start : (machine serverName toolTimeout).start s) :
    Recorded s ∧ Queued s := by
  obtain ⟨service, opened, failed, free, queue, fresh, history⟩ := start
  refine ⟨⟨?_, ?_, ?_, ?_, ?_⟩, ⟨?_, ?_, ?_, ?_⟩⟩
  · rw [history]
    trivial
  · rw [history, free]
    rfl
  · rw [history, opened, service]
    rfl
  · rw [history]
    exact nofun
  · rw [failed]
    exact nofun
  · intro number deadline limit at_
    rw [fresh number] at at_
    cases at_
  · rw [queue]
    exact nofun
  · rw [queue]
    exact List.nodup_nil
  · rw [history]
    exact nofun

/-- What the invariants say about the first caller in the queue. -/
theorem singleAndBackedOff_of_recorded (recorded : Recorded s) (queued : Queued s)
    (serverName : String) (toolTimeout : Nat) : SingleAndBackedOff serverName toolTimeout s := by
  have first {number : Nat} {rest : List Nat} (queue : s.queue = number :: rest)
      (idle : running s.history = none) :
      ∃ deadline, s.step serverName toolTimeout .acquire =
        some ({ s with queue := rest }.liveService number deadline) := by
    obtain ⟨deadline, at_⟩ := queued.waiting number (queue ▸ List.mem_cons_self)
    rw [recorded.running] at idle
    exact ⟨deadline, by simp only [step, idle, queue, at_]⟩
  refine ⟨recorded.orderly, fun number rest service queue idle open_ => ?_,
    fun number rest queue idle lost within => ?_⟩
  · obtain ⟨deadline, acquired⟩ := first queue idle
    rw [recorded.live] at open_
    split at open_
    · cases open_
    · next opened =>
      cases open_
      obtain ⟨-, same⟩ | ⟨closed, -⟩ | ⟨closed, -⟩ :=
        liveService_cases { s with queue := rest } number deadline
      · exact ⟨_, deadline, acquired.trans (congrArg some same), Function.update_self _ _ _, rfl⟩
      · exact absurd closed opened
      · exact absurd closed opened
  · obtain ⟨deadline, acquired⟩ := first queue idle
    have closed : s.closed = true := by
      rw [recorded.live] at lost
      split at lost
      · assumption
      · cases lost
    obtain ⟨opened, -⟩ | ⟨-, time, why, -, -, same⟩ | ⟨-, passed, -⟩ :=
      liveService_cases { s with queue := rest } number deadline
    · rw [show s.closed = false from opened] at closed
      cases closed
    · exact ⟨_, why, acquired.trans (congrArg some same), Function.update_self _ _ _, rfl⟩
    · refine absurd (fun event member ended at_ => ?_) within
      rcases recorded.backoff event member ended at_ with past | ⟨-, time, why, failed, before⟩
      · exact past
      · exact Nat.le_trans (Nat.add_le_add_right before _) (passed time why failed)

/-- In every run in which no call ends while its attempt runs, at most one attempt runs at a time, a
failed one is followed by no other within the back-off, in which callers fail at once, the others
use the new connection, and no call is sent twice. -/
theorem reconnects_single_and_backed_off
    (reached : (machine serverName toolTimeout).ReachableUnder FinishesAttempts s) :
    SingleAndBackedOff serverName toolTimeout s := by
  have inv : Recorded s ∧ Queued s := by
    apply reached.invariant
    · intro first start
      exact invariant_start start
    · intro before action after inv permitted stepped
      exact invariant_step inv.1 inv.2 permitted stepped
  exact singleAndBackedOff_of_recorded inv.1 inv.2 serverName toolTimeout

def freshClient : McpClient := ⟨0, 0, false, none, none, [], fun _ => .fresh, []⟩

theorem freshClient_start (serverName : String) (toolTimeout : Nat) :
    (machine serverName toolTimeout).start freshClient :=
  ⟨rfl, rfl, rfl, rfl, rfl, fun _ => rfl, rfl⟩

/-- Two calls wait for one attempt, which is refused. The second one fails at once. -/
theorem reconnects_single_and_backed_off_sample : ∃ s : McpClient,
    s.history = [.failedAtOnce 7 1 (closedAndFailed "srv" "gone"),
        .failed 7 0 (closedAndFailed "srv" "gone"),
      .started 0 0, .lost 0] ∧ SingleAndBackedOff "srv" 1000000000 s := by
  have executed : (machine "srv" 1000000000).exec freshClient
    [.lose, .callTool 0, .callTool 1, .acquire, .tick 7, .refuse 0 "gone", .acquire] = some _ := rfl
  have permitted : (machine "srv" 1000000000).Permits FinishesAttempts freshClient
      [.lose, .callTool 0, .callTool 1, .acquire, .tick 7, .refuse 0 "gone", .acquire] :=
    Machine.permits_of_forall (by simp [FinishesAttempts]) _
  exact ⟨_, rfl, reconnects_single_and_backed_off
    ⟨_, freshClient_start "srv" 1000000000, Machine.exec_runs permitted executed⟩⟩

/-- A call reaches its timeout of one second while its attempt runs, and the
next one tries again at once. -/
theorem abandoned_attempt_not_backed_off :
    ∃ s, (machine "srv" 1000000000).Reachable s ∧ ¬ SingleAndBackedOff "srv" 1000000000 s := by
  have executed : (machine "srv" 1000000000).exec freshClient
    [.lose, .callTool 0, .acquire, .tick 1000000000, .expire 0, .callTool 1, .acquire] =
      some _ := rfl
  refine ⟨_, Machine.reachable_of_exec (freshClient_start "srv" 1000000000) executed,
    fun orderly => ?_⟩
  obtain ⟨⟨-, -, passed⟩, -⟩ := orderly.orderly
  exact absurd (passed (.abandoned 1000000000 0) List.mem_cons_self 1000000000 rfl) (by decide)

end McpClient

end Openheim.Mcp
