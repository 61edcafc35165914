import Openheim.Runtime.Eviction
import Openheim.Runtime.RunningTurns

/-
This file shows that a session is live when the call that opened it returns.
-/

namespace Openheim.Runtime

def Opened.sessionId : Opened → String
  | .created sessionId => sessionId
  | .loaded sessionId _ _ _ => sessionId

/-- The sweeps that follow `new_session` reach its session last: the first comes within a week, and
at the second fewer other sessions are preferred to it than the map may hold. -/
def KeepsNew (s : AgentState) (action : Action) : Prop :=
  action = .continueOpening → ∀ sessionId,
    (s.opening = some ⟨sessionId, false, .idleSweep⟩ → ∀ state,
      s.sessions.lookup sessionId = some state →
        s.now - state.lastActive ≤ sessionIdleEvictionAfter) ∧
    (s.opening = some ⟨sessionId, false, .excessSweep⟩ → ∀ before state after,
      s.sessions.entries = before ++ ⟨sessionId, state⟩ :: after →
        preferred s.locked state before after < maxLiveSessions)

/-- The session of a `new_session` that has not returned is in the map. -/
def NewIsLive (s : AgentState) : Prop :=
  ∀ sessionId stage, s.opening = some ⟨sessionId, false, stage⟩ →
    (s.sessions.lookup sessionId).isSome

section Steps
variable {uuid : UuidCrate} {baseline : AgentConfig} {s t : AgentState} {action : Action}

/-- A step leaves the call that holds the write lock alone, or begins one, or is a step of it. -/
inductive OpeningStep (s : AgentState) (action : Action) (t : AgentState) : Prop where
  | aside (same : t.opening = s.opening)
      (kept : s.opening = none ∨ ∀ id, t.sessions.lookup id = s.sessions.lookup id)
  | begin (opening : Opening) (next : t.opening = some opening)
      (inserted : (t.sessions.lookup opening.sessionId).isSome)
  | continue (opening : Opening) (current : s.opening = some opening)
      (proceeds : action = .continueOpening)
      (next : t = continueOpening s opening)

theorem updateSession_opening (sessionId : String) (change : SessionState → SessionState) :
    (updateSession s sessionId change).opening = s.opening := by
  unfold updateSession
  split
  · rfl
  · rfl

theorem opening_step (stepped : agentStep uuid baseline s action = some t) :
    OpeningStep s action t := by
  cases action with
  | newSession chatId config =>
      simp only [agentStep] at stepped
      split at stepped
      · cases stepped
      · cases stepped
        exact .begin _ rfl (by simp [AgentState.insertFresh, AgentState.insertSession])
  | loadSession sessionId config =>
      simp only [agentStep] at stepped
      split at stepped
      · cases stepped
      · split at stepped
        · cases stepped
          exact .aside rfl (.inr fun _ => rfl)
        · split at stepped
          · cases stepped
            refine .begin _ rfl ?_
            unfold AgentState.insertOrKeepLive
            split
            · simp [AgentState.insertSession]
            · simp [AgentState.insertFresh, AgentState.insertSession]
          · cases stepped
            exact .aside rfl (.inr fun _ => rfl)
  | continueOpening =>
      obtain ⟨opening, current, rfl⟩ := Option.map_eq_some_iff.mp stepped
      exact .continue opening current rfl rfl
  | prompt number sessionId =>
      simp only [agentStep] at stepped
      split at stepped
      · cases stepped
      · next free =>
        have closed : s.opening = none := by simpa using (not_or.mp free).1
        split at stepped
        · cases stepped
          exact .aside rfl (.inl closed)
        · split at stepped
          · cases stepped
            exact .aside rfl (.inl closed)
          · split at stepped
            · cases stepped
              exact .aside rfl (.inl closed)
            · cases stepped
              exact .aside rfl (.inl closed)
  | acquireLease number ioOk =>
      simp only [agentStep] at stepped
      split at stepped
      · split at stepped
        · split at stepped
          · cases stepped
            exact .aside rfl (.inr fun _ => rfl)
          · cases stepped
            exact .aside rfl (.inr fun _ => rfl)
        · cases stepped
      · cases stepped
  | prepare number resolved built =>
      simp only [agentStep] at stepped
      split at stepped
      · split at stepped
        · split at stepped
          · cases stepped
            split
            · exact .aside rfl (.inr fun _ => rfl)
            · exact .aside rfl (.inr fun _ => rfl)
          · cases stepped
            exact .aside rfl (.inr fun _ => rfl)
        · cases stepped
      · cases stepped
  | finish number =>
      obtain ⟨turn, _, rfl⟩ := Option.map_eq_some_iff.mp stepped
      exact .aside rfl (.inr fun _ => rfl)
  | cancelSession sessionId =>
      simp only [agentStep] at stepped
      split at stepped
      · cases stepped
      · next free =>
        have closed : s.opening = none := by simpa using free
        split at stepped
        · cases stepped
          exact .aside (updateSession_opening _ _) (.inl closed)
        · cases stepped
          exact .aside rfl (.inl closed)
  | applySessionConfig sessionId config =>
      simp only [agentStep] at stepped
      split at stepped
      · cases stepped
      · next free =>
        cases stepped
        exact .aside (updateSession_opening _ _) (.inl (by simpa using free))
  | setSessionMode sessionId mode =>
      simp only [agentStep] at stepped
      split at stepped
      · cases stepped
      · next free =>
        cases stepped
        exact .aside (updateSession_opening _ _) (.inl (by simpa using free))
  | rehash entries =>
      simp only [agentStep] at stepped
      split at stepped
      · next same =>
        cases stepped
        exact .aside rfl (.inr fun _ => AList.perm_lookup same)
      · cases stepped
  | otherProcess chatId holds =>
      simp only [agentStep] at stepped
      split at stepped
      · cases stepped
      · cases stepped
        exact .aside rfl (.inr fun _ => rfl)
  | tick =>
      cases stepped
      exact .aside rfl (.inr fun _ => rfl)

/-- A sweep that reaches the new session last leaves it in the map. -/
theorem NewIsLive.continue {opening : Opening} (live : NewIsLive s)
    (current : s.opening = some opening)
    (keeps : KeepsNew s .continueOpening) : NewIsLive (continueOpening s opening) := by
  intro sessionId stage next
  obtain ⟨name, loads, at_⟩ := opening
  cases at_ with
  | idleSweep =>
      cases next
      obtain ⟨state, found⟩ := Option.isSome_iff_exists.mp (live name _ current)
      have recent := (keeps rfl name).1 current state found
      simp only [continueOpening, evictIdle, lookup_removeSessions]
      rw [if_neg, found]
      · rfl
      · intro removed
        simp only [idleIds, List.mem_map, List.mem_filter, Bool.and_eq_true,
          decide_eq_true_eq] at removed
        obtain ⟨entry, ⟨inside, long, _⟩, rfl⟩ := removed
        have same := lookup_eq_of_entry inside
        rw [found] at same
        cases same
        exact absurd recent (Nat.not_le.mpr long)
  | excessSweep =>
      cases next
      obtain ⟨state, found⟩ := Option.isSome_iff_exists.mp (live name _ current)
      obtain ⟨before, after, split⟩ := List.append_of_mem (AList.mem_lookup_iff.mp found)
      simp only [continueOpening]
      cases busy : promptInFlight s.locked state with
      | true => rw [lookup_evictExcess found busy]; rfl
      | false =>
          rw [(lookup_evictExcess_iff split busy).mpr
            ((keeps rfl name).2 current before state after split)]
          rfl
  | result => cases next

theorem NewIsLive.step (live : NewIsLive s) (keeps : KeepsNew s action)
    (stepped : agentStep uuid baseline s action = some t) : NewIsLive t := by
  cases opening_step stepped with
  | aside same kept =>
      intro sessionId stage next
      rw [same] at next
      rcases kept with closed | unchanged
      · rw [closed] at next
        cases next
      · rw [unchanged]
        exact live sessionId stage next
  | begin opening opens inserted =>
      intro sessionId stage next
      rw [opens] at next
      cases next
      exact inserted
  | «continue» opening current proceeds next =>
      subst proceeds next
      exact live.continue current keeps

/-- From any map of sessions: a sweep removes only sessions without a turn in flight, the
least recently used first, and the last one goes on until the map is small enough or holds no
other sessions. What an opening call returns names a session in the map, as long as the
sweeps reach a new session last. -/
theorem opened_sessions_live {s₀ : AgentState} (idle : s₀.opening = none)
    (ran : (agentMachine uuid baseline).Runs KeepsNew s₀ s) {opening : Opening}
    (current : s.opening = some opening)
    (stepped : agentStep uuid baseline s .continueOpening = some t) :
    Sweeps s.locked s.sessions t.sessions ∧
    (opening.stage = .excessSweep → t.sessions.entries.length ≤ maxLiveSessions ∨
      ∀ id state, t.sessions.lookup id = some state → promptInFlight s.locked state) ∧
    (opening.stage = .result → ∀ opened, t.opened = some (.ok opened) →
      opened.sessionId = opening.sessionId ∧ (t.sessions.lookup opened.sessionId).isSome) := by
  have live : NewIsLive s := ran.preserves (fun _ _ next => by rw [idle] at next; cases next)
    fun _ _ _ before keeps next => before.step keeps next
  have next : t = continueOpening s opening := by
    rw [agentStep, current] at stepped
    exact (Option.some.inj stepped).symm
  subst next
  obtain ⟨name, loads, stage⟩ := opening
  cases stage with
  | idleSweep =>
    exact ⟨evictIdle_sweeps _ _ _ _, fun other => (by cases other), fun other => (by cases other)⟩
  | excessSweep =>
      exact ⟨evictExcess_sweeps _ _ _, fun _ => evictExcess_bounded _ _ _,
        fun other => (by cases other)⟩
  | result =>
      refine ⟨.refl _ _, fun other => (by cases other), fun _ opened returned => ?_⟩
      cases loads with
      | true =>
          -- a loaded session is looked up again before the call returns
          have result : s.loadResult name = .ok opened := Option.some.inj returned
          unfold AgentState.loadResult at result
          split at result
          · cases result
          · next found =>
            split at result
            · cases result
            · cases result
              exact ⟨rfl, by rw [continueOpening, Opened.sessionId, found]; rfl⟩
      | false =>
          cases returned
          exact ⟨rfl, live name .result current⟩

end Steps

/-- The first session of a runtime is in the map when its call returns. -/
theorem opened_sessions_live_sample : ∃ s t, s.opening = some ⟨sampleText, false, .result⟩ ∧
    agentStep Uuid.crate sampleConfig s .continueOpening = some t ∧
    t.opened = some (.ok (.created sampleText)) ∧ (t.sessions.lookup sampleText).isSome := by
  obtain ⟨first, opens, early, sweeps⟩ : ∃ first, agentStep Uuid.crate sampleConfig emptyState
      (.newSession sampleId sampleConfig) = some first ∧ first.now = 0 ∧
      first.opening = some ⟨sampleText, false, .idleSweep⟩ := ⟨_, rfl, rfl, rfl⟩
  obtain ⟨second, swept, single, next⟩ : ∃ second,
      agentStep Uuid.crate sampleConfig first .continueOpening = some second ∧
        second.sessions.entries.length = 1 ∧
          second.opening = some ⟨sampleText, false, .excessSweep⟩ := by
    cases opens
    exact ⟨_, rfl, rfl, rfl⟩
  obtain ⟨third, cut, current⟩ : ∃ third,
      agentStep Uuid.crate sampleConfig second .continueOpening = some third ∧
      third.opening = some ⟨sampleText, false, .result⟩ := by
    rw [agentStep, next]
    exact ⟨_, rfl, rfl⟩
  obtain ⟨last, stepped, returned⟩ : ∃ last,
      agentStep Uuid.crate sampleConfig third .continueOpening = some last ∧
      last.opened = some (.ok (.created sampleText)) := by
    rw [agentStep, current]
    exact ⟨_, rfl, rfl⟩
  have within : KeepsNew first .continueOpening := fun _ sessionId => by
    refine ⟨fun _ state _ => ?_, fun other => ?_⟩
    · rw [early, Nat.zero_sub]
      exact Nat.zero_le _
    · rw [sweeps] at other
      cases other
  have few : KeepsNew second .continueOpening := fun _ sessionId => by
    refine ⟨fun other => ?_, fun _ before state after split => ?_⟩
    · rw [next] at other
      cases other
    · rw [split, List.length_append, List.length_cons] at single
      rw [preferred, List.length_eq_zero_iff.mp (by omega : before.length = 0),
        List.length_eq_zero_iff.mp (by omega : after.length = 0), List.countP_nil, List.countP_nil]
      decide
  have begins : (agentMachine Uuid.crate sampleConfig).Step KeepsNew emptyState first :=
    ⟨.newSession sampleId sampleConfig, fun other => (by cases other), opens⟩
  have ran : (agentMachine Uuid.crate sampleConfig).Runs KeepsNew emptyState third :=
    ((Relation.ReflTransGen.single begins).tail ⟨_, within, swept⟩).tail ⟨_, few, cut⟩
  have live := (opened_sessions_live rfl ran current stepped).2.2 rfl _ returned
  exact ⟨third, last, current, stepped, returned, live.2⟩

section Crowd

/-- The id of the session with a number. -/
def crowdId (number : Nat) : String := Uuid.toText (BitVec.ofNat 128 number)

/-- Some sessions are live, each with a turn in flight, and no time has passed. -/
structure Crowd (s : AgentState) (size : Nat) : Prop where
  reached : (agentMachine Uuid.crate sampleConfig).Reachable s
  closed : s.opening = none
  count : s.sessions.entries.length = size
  named : ∀ id state, s.sessions.lookup id = some state → ∃ number < size, id = crowdId number ∧
    state.chatId = BitVec.ofNat 128 number
  busy : ∀ id state, s.sessions.lookup id = some state → s.locked state.promptLock = true
  unused : ∀ lock, s.nextLock ≤ lock → s.locked lock = false
  used : ∀ id state, s.sessions.lookup id = some state → state.promptLock < s.nextLock
  unsaved : ∀ id, s.saved id = false
  turns : ∀ number, size ≤ number → s.turns number = none
  early : s.now = 0

/-- The state between the two sweeps of the next `new_session`. -/
def joined (s : AgentState) (size : Nat) : AgentState :=
  { s.insertFresh (crowdId size) (BitVec.ofNat 128 size) sampleConfig (sessionLlm sampleConfig
      sampleConfig) with
    opening := some ⟨crowdId size, false, .excessSweep⟩ }

variable {s : AgentState} {size : Nat}

theorem crowdId_injective {first second : Nat} (small : first < 2 ^ 128) (other : second < 2 ^ 128)
    (same : crowdId first = crowdId second) : first = second := by
  have parsed := congrArg Uuid.parseStr same
  rw [crowdId, crowdId, Uuid.parseStr_toText, Uuid.parseStr_toText, Option.some.injEq] at parsed
  have numbers := congrArg BitVec.toNat parsed
  rwa [BitVec.toNat_ofNat, BitVec.toNat_ofNat, Nat.mod_eq_of_lt small,
    Nat.mod_eq_of_lt other] at numbers

theorem Crowd.absent (crowd : Crowd s size) (small : size ≤ maxLiveSessions) :
    crowdId size ∉ s.sessions := by
  rw [← AList.lookup_eq_none]
  by_contra present
  obtain ⟨state, found⟩ := Option.ne_none_iff_exists'.mp present
  obtain ⟨number, below, same, _⟩ := crowd.named _ state found
  rw [maxLiveSessions] at small
  have equal := crowdId_injective (by omega) (by omega) same
  omega

/-- While no time passes, no session is idle for too long. -/
theorem evictIdle_zero (locked : Nat → Bool) (sessions : Sessions) (idleAfter : Instant) :
    evictIdle locked sessions 0 idleAfter = sessions := by
  have nobody : idleIds locked sessions 0 idleAfter = [] := by
    rw [idleIds, List.map_eq_nil_iff, List.filter_eq_nil_iff]
    intro entry _
    simp
  rw [evictIdle, nobody]
  rfl

theorem Crowd.opens (crowd : Crowd s size) (small : size ≤ maxLiveSessions) :
    (agentMachine Uuid.crate sampleConfig).exec s
      [.newSession (BitVec.ofNat 128 size) sampleConfig, .continueOpening] =
      some (joined s size) := by
  have free : ¬ (s.opening.isSome ∨ s.saved (BitVec.ofNat 128 size) ∨
      s.sessions.entries.any fun entry => entry.2.chatId = BitVec.ofNat 128 size) := by
    rintro (opened | saved | taken)
    · rw [crowd.closed] at opened
      cases opened
    · rw [crowd.unsaved] at saved
      cases saved
    · obtain ⟨entry, inside, same⟩ := List.any_eq_true.mp taken
      obtain ⟨number, below, _, chat⟩ := crowd.named _ _ (lookup_eq_of_entry inside)
      rw [chat, decide_eq_true_eq] at same
      have numbers := congrArg BitVec.toNat same
      rw [maxLiveSessions] at small
      rw [BitVec.toNat_ofNat, BitVec.toNat_ofNat, Nat.mod_eq_of_lt (by omega),
        Nat.mod_eq_of_lt (by omega)] at numbers
      omega
  have first :
      agentStep Uuid.crate sampleConfig s (.newSession (BitVec.ofNat 128 size) sampleConfig) =
      some { joined s size with opening := some ⟨crowdId size, false, .idleSweep⟩ } := by
    rw [agentStep]
    exact if_neg free
  have second : agentStep Uuid.crate sampleConfig
      { joined s size with opening := some ⟨crowdId size, false, .idleSweep⟩ } .continueOpening =
      some (joined s size) := by
    simp only [agentStep, Option.map_some, continueOpening, joined, AgentState.insertFresh,
      AgentState.insertSession, crowd.early, evictIdle_zero]
  simp only [Machine.exec, agentMachine, first, second, Option.bind_some]

/-- The state in which the next `new_session` returns if the second sweep removes nothing. -/
def settled (s : AgentState) (size : Nat) : AgentState :=
  { joined s size with opening := none, opened := some (.ok (.created (crowdId size))) }

/-- The state in which a turn of that session is in flight. -/
def grown (s : AgentState) (size : Nat) : AgentState :=
  startTurn sampleConfig (settled s size) size (crowdId size) (BitVec.ofNat 128 size)
    (s.freshSession (BitVec.ofNat 128 size) sampleConfig (sessionLlm sampleConfig sampleConfig))

theorem Crowd.joined_entries (crowd : Crowd s size) (small : size ≤ maxLiveSessions) :
    (joined s size).sessions.entries =
      ⟨crowdId size, s.freshSession (BitVec.ofNat 128 size) sampleConfig
      (sessionLlm sampleConfig sampleConfig)⟩ :: s.sessions.entries :=
  AList.entries_insert_of_notMem (crowd.absent small)

theorem Crowd.grows_exec (crowd : Crowd s size) (small : size < maxLiveSessions) :
    (agentMachine Uuid.crate sampleConfig).exec (joined s size)
      [.continueOpening, .continueOpening, .prompt size (crowdId size)] = some (grown s size) := by
  have sized : ¬ maxLiveSessions < (joined s size).sessions.entries.length := by
    rw [crowd.joined_entries small.le, List.length_cons, crowd.count]
    omega
  have third : agentStep Uuid.crate sampleConfig (joined s size) .continueOpening =
      some { joined s size with opening := some ⟨crowdId size, false, .result⟩ } := by
    have unchanged : evictExcess (joined s size).locked (joined s size).sessions maxLiveSessions =
        (joined s size).sessions := if_neg sized
    rw [agentStep, joined, Option.map_some, continueOpening]
    rw [joined] at unchanged
    simp only [unchanged]
  have fourth : agentStep Uuid.crate sampleConfig { joined s size with
      opening := some ⟨crowdId size, false, .result⟩ }
      .continueOpening = some (settled s size) := rfl
  have fifth : agentStep Uuid.crate sampleConfig (settled s size) (.prompt size (crowdId size)) =
      some (grown s size) := by
    have parsed : Uuid.crate.parseStr (crowdId size) = some (BitVec.ofNat 128 size)  := by
      rw [crowdId]
      exact Uuid.crate.parseStr_toText _
    have found : (settled s size).sessions.lookup (crowdId size) = some
        (s.freshSession (BitVec.ofNat 128 size) sampleConfig
            (sessionLlm sampleConfig sampleConfig)) :=
      AList.lookup_insert _
    have free : ¬ ((settled s size).opening.isSome ∨ ((settled s size).turns size).isSome) := by
      rintro (opened | taken)
      · cases opened
      · rw [show (settled s size).turns size = none from crowd.turns size le_rfl] at taken
        cases taken
    have idle : promptInFlight (settled s size).locked
        (s.freshSession (BitVec.ofNat 128 size) sampleConfig
            (sessionLlm sampleConfig sampleConfig)) = false :=
      crowd.unused _ le_rfl
    rw [agentStep, if_neg free]
    simp only [parsed, found, idle, Bool.false_eq_true, if_false, grown]
  simp only [Machine.exec, agentMachine, third, fourth, fifth, Option.bind_some]

/-- One more session, with a turn in flight. -/
theorem Crowd.grows (crowd : Crowd s size) (small : size < maxLiveSessions) :
    Crowd (grown s size) (size + 1) := by
  have sessions : (grown s size).sessions = s.sessions.insert (crowdId size)
      { s.freshSession (BitVec.ofNat 128 size) sampleConfig (sessionLlm sampleConfig
          sampleConfig) with
        cancel := s.nextToken + 1, lastActive := s.now } := AList.insert_insert _
  have lookup (id : String) (state : SessionState) (found : (grown s size).sessions.lookup id =
      some state) :
      (id = crowdId size ∧ state.promptLock = s.nextLock ∧ state.chatId = BitVec.ofNat 128 size) ∨
        s.sessions.lookup id = some state := by
    rw [sessions] at found
    by_cases own : id = crowdId size
    · subst own
      rw [AList.lookup_insert] at found
      cases found
      exact .inl ⟨rfl, rfl, rfl⟩
    · rw [AList.lookup_insert_ne own] at found
      exact .inr found
  have locks (lock : Nat) : (grown s size).locked lock =
      if lock = s.nextLock then true else s.locked lock :=
    Function.update_apply _ _ _ _
  obtain ⟨start, started, ran⟩ := crowd.reached
  have opened := Machine.exec_runs (Machine.permits_free _ _ _) (crowd.opens small.le)
  have prompted := Machine.exec_runs (Machine.permits_free _ _ _) (crowd.grows_exec small)
  refine ⟨⟨start, started, (ran.trans opened).trans prompted⟩, rfl, ?_, fun id state found => ?_,
    fun id state found => ?_, fun lock above => ?_, fun id state found => ?_, crowd.unsaved,
    fun number above => ?_, crowd.early⟩
  · rw [sessions, AList.entries_insert_of_notMem (crowd.absent small.le), List.length_cons,
      crowd.count]
  · rcases lookup id state found with ⟨name, _, chat⟩ | old
    · exact ⟨size, Nat.lt_succ_self size, name, chat⟩
    · obtain ⟨number, below, facts⟩ := crowd.named id state old
      exact ⟨number, Nat.lt_succ_of_lt below, facts⟩
  · rcases lookup id state found with ⟨_, lock, _⟩ | old
    · rw [locks, if_pos lock]
    · rw [locks, if_neg (crowd.used id state old).ne]
      exact crowd.busy id state old
  · have later : s.nextLock < lock := above
    rw [locks, if_neg later.ne']
    exact crowd.unused lock later.le
  · rcases lookup id state found with ⟨_, lock, _⟩ | old
    · exact lock ▸ Nat.lt_succ_self s.nextLock
    · exact Nat.lt_succ_of_lt (crowd.used id state old)
  · have other : number ≠ size := by omega
    exact (Function.update_of_ne other _ _).trans (crowd.turns number (by omega))

/-- Crowds of every size that the map may hold are reachable. -/
theorem crowd_exists (size : Nat) (small : size ≤ maxLiveSessions) : ∃ s, Crowd s size := by
  induction size with
  | zero =>
      refine ⟨emptyState, ⟨⟨emptyState, emptyState_start, .refl⟩, rfl, rfl, ?_, ?_, fun _ _ => rfl,
        ?_, fun _ => rfl, fun _ _ => rfl, rfl⟩⟩
      · intro id state found
        cases found
      · intro id state found
        cases found
      · intro id state found
        cases found
  | succ size ih =>
      obtain ⟨s, crowd⟩ := ih (by omega)
      exact ⟨grown s size, crowd.grows small⟩

/-- With a turn in flight in as many sessions as the map may hold, a new session is removed before
the call that opened it returns its id. -/
theorem new_session_evicted :
    ∃ s t, (agentMachine Uuid.crate sampleConfig).Reachable s ∧ s.opening = none ∧
    (agentMachine Uuid.crate sampleConfig).exec s
      [.newSession (BitVec.ofNat 128 maxLiveSessions) sampleConfig,
      .continueOpening, .continueOpening, .continueOpening] = some t ∧
    t.opened = some (.ok (.created (crowdId maxLiveSessions))) ∧
    t.sessions.lookup (crowdId maxLiveSessions) = none := by
  obtain ⟨s, crowd⟩ := crowd_exists maxLiveSessions le_rfl
  let fresh :=
    s.freshSession (BitVec.ofNat 128 maxLiveSessions) sampleConfig
      (sessionLlm sampleConfig sampleConfig)
  have entries : (joined s maxLiveSessions).sessions.entries =
      [] ++ ⟨crowdId maxLiveSessions, fresh⟩ :: s.sessions.entries := crowd.joined_entries le_rfl
  have everyone : preferred s.locked fresh [] s.sessions.entries = maxLiveSessions := by
    rw [preferred, List.countP_nil, Nat.zero_add, ← crowd.count, List.countP_eq_length]
    intro entry inside
    rw [promptInFlight, crowd.busy _ _ (lookup_eq_of_entry inside), Bool.true_or]
  have idle : promptInFlight s.locked fresh = false := crowd.unused _ le_rfl
  have gone : (evictExcess s.locked (joined s maxLiveSessions).sessions maxLiveSessions).lookup
      (crowdId maxLiveSessions) = none := by
    by_contra stays
    obtain ⟨state, found⟩ := Option.ne_none_iff_exists'.mp stays
    have same := lookup_of_evictExcess found
    rw [show (joined s maxLiveSessions).sessions.lookup (crowdId maxLiveSessions) = some fresh from
      AList.lookup_insert _] at same
    cases same
    have few := (lookup_evictExcess_iff entries idle).mp found
    rw [everyone] at few
    exact absurd few (Nat.lt_irrefl _)
  refine ⟨s, { joined s maxLiveSessions with
    sessions := evictExcess s.locked (joined s maxLiveSessions).sessions maxLiveSessions
    opening := none
    opened := some (.ok (.created (crowdId maxLiveSessions))) }, crowd.reached, crowd.closed,
      ?_, rfl, gone⟩
  · have opens := crowd.opens le_rfl
    rw [show [Action.newSession (BitVec.ofNat 128 maxLiveSessions) sampleConfig, .continueOpening,
      .continueOpening,
        .continueOpening] = [.newSession (BitVec.ofNat 128 maxLiveSessions) sampleConfig,
          .continueOpening] ++
        [.continueOpening, .continueOpening] from rfl, Machine.exec_append, opens]
    rfl

end Crowd

end Openheim.Runtime
