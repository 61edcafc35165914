import Openheim.Runtime.StateMoves

/-
This file shows that a running turn keeps its session, its prompt lock and its cancellation token.
-/

namespace Openheim.Runtime

/-- The parts of a session that a turn relies on. -/
def SessionState.SameControl (before after : SessionState) : Prop :=
  after.cancel = before.cancel ∧ after.promptLock = before.promptLock ∧ after.chatId = before.chatId

/-- A turn changes nothing but its stage. -/
def Turn.Continues (before after : Turn) : Prop := after = { before with stage := after.stage }

/-- A quiet step makes no session, starts no turn and cancels nothing. -/
structure Quiet (s t : AgentState) : Prop where
  back : ∀ id after, t.sessions.lookup id = some after →
    ∃ before, s.sessions.lookup id = some before ∧ before.SameControl after
  forth : ∀ id before, s.sessions.lookup id = some before → s.locked before.promptLock →
    ∃ after, t.sessions.lookup id = some after ∧ before.SameControl after
  turns : ∀ number after, t.turns number = some after →
    ∃ before, s.turns number = some before ∧ before.Continues after
  locked : ∀ number turn, t.turns number = some turn →
    (∀ other held, s.turns other = some held → held.promptLock = turn.promptLock → other = number) →
    s.locked turn.promptLock → t.locked turn.promptLock
  nextLock : t.nextLock = s.nextLock
  nextToken : t.nextToken = s.nextToken
  cancelled : t.cancelled = s.cancelled

section Steps
variable {s t : AgentState}

/-- A step that changes neither sessions nor turns nor tokens is quiet. -/
theorem Quiet.refl (s : AgentState) : Quiet s s where
  back _ after found := ⟨after, found, rfl, rfl, rfl⟩
  forth _ before found _ := ⟨before, found, rfl, rfl, rfl⟩
  turns _ after found := ⟨after, found, rfl⟩
  locked _ _ _ _ held := held
  nextLock := rfl
  nextToken := rfl
  cancelled := rfl

/-- Sweeping the map loses idle sessions only. -/
theorem Quiet.sweep {sessions : Sessions} {opening : Option Opening}
    (back : ∀ id state, sessions.lookup id = some state → s.sessions.lookup id = some state)
    (forth : ∀ id state, s.sessions.lookup id = some state → s.locked state.promptLock →
      sessions.lookup id = some state) : Quiet s { s with sessions, opening } :=
  { Quiet.refl s with
    back := fun id after found => ⟨after, back id after found, rfl, rfl, rfl⟩
    forth := fun id before found held => ⟨before, forth id before found held, rfl, rfl, rfl⟩ }

/-- A change of one live session that keeps its control state is quiet. -/
theorem Quiet.insertSession {sessionId : String} {before after : SessionState}
    (found : s.sessions.lookup sessionId = some before) (same : before.SameControl after) :
    Quiet s (s.insertSession sessionId after) where
  back id state present := by
    by_cases own : id = sessionId
    · subst own
      rw [AgentState.insertSession, AList.lookup_insert, Option.some.injEq] at present
      exact ⟨before, found, present ▸ same⟩
    · rw [AgentState.insertSession, AList.lookup_insert_ne own] at present
      exact ⟨state, present, rfl, rfl, rfl⟩
  forth id state present _ := by
    by_cases own : id = sessionId
    · subst own
      rw [found, Option.some.injEq] at present
      exact ⟨after, AList.lookup_insert _, present ▸ same⟩
    · exact ⟨state, (AList.lookup_insert_ne own).trans present, rfl, rfl, rfl⟩
  turns _ after found := ⟨after, found, rfl⟩
  locked _ _ _ _ held := held
  nextLock := rfl
  nextToken := rfl
  cancelled := rfl

theorem Quiet.updateSession {sessionId : String} {change : SessionState → SessionState}
    (same : ∀ state : SessionState, state.SameControl (change state)) :
    Quiet s (updateSession s sessionId change) := by
  unfold Runtime.updateSession
  split
  · rename_i session found
    exact Quiet.insertSession found (same session)
  · exact Quiet.refl s

theorem Quiet.setStage {number : Nat} {turn : Turn} (stage : TurnStage)
    (found : s.turns number = some turn) :
    Quiet s (s.setStage number turn stage) :=
  { Quiet.refl s with
    turns := fun other after present => by
      simp only [AgentState.setStage, Function.update_apply] at present
      split at present
      · rename_i own
        cases present
        exact ⟨turn, own ▸ found, rfl⟩
      · exact ⟨after, present, rfl⟩
    locked := fun _ _ _ _ held => held }

/-- The end of a turn unlocks its own prompt lock and no other turn's. -/
theorem Quiet.endTurn {number : Nat} {turn : Turn} (found : s.turns number = some turn) :
    Quiet s (s.endTurn number turn) :=
  { Quiet.refl s with
    turns := fun other after present => by
      simp only [AgentState.endTurn, Function.update_apply] at present
      split at present
      · simp at present
      · exact ⟨after, present, rfl⟩
    locked := fun other after present single held => by
      simp only [AgentState.endTurn, Function.update_apply] at present ⊢
      split at present
      · simp at present
      · rename_i different
        rw [if_neg, held]
        intro same
        exact different (single number turn found same.symm).symm }

/-- Two quiet changes that touch different parts of the state follow each other. -/
theorem Quiet.of_eq {middle : AgentState} (quiet : Quiet middle t)
    (sessions : middle.sessions = s.sessions)
    (locked : middle.locked = s.locked) (turns : middle.turns = s.turns)
    (nextLock : middle.nextLock = s.nextLock)
    (nextToken : middle.nextToken = s.nextToken) (cancelled : middle.cancelled = s.cancelled) :
    Quiet s t where
  back id after found := sessions ▸ quiet.back id after found
  forth id before found held := quiet.forth id before (sessions ▸ found) (locked ▸ held)
  turns number after found := turns ▸ quiet.turns number after found
  locked number turn found single held :=
    quiet.locked number turn found (turns ▸ single) (locked ▸ held)
  nextLock := quiet.nextLock.trans nextLock
  nextToken := quiet.nextToken.trans nextToken
  cancelled := quiet.cancelled.trans cancelled

/-- A step is quiet, or it cancels the token of one session, or it makes one session under an unused
id, or it starts one turn of an idle session. -/
theorem agentStep_cases {uuid : UuidCrate} {baseline : AgentConfig} {action : Action}
    (spelled : ∀ id session, s.sessions.lookup id = some session →
      uuid.parseStr id = some session.chatId)
    (stepped : agentStep uuid baseline s action = some t) :
    Quiet s t ∨
      (∃ sessionId session middle, action = .cancelSession sessionId ∧
        s.sessions.lookup sessionId = some session ∧ Quiet s middle ∧
        t = { middle with cancelled := Function.update s.cancelled session.cancel true }) ∨
      (∃ sessionId chatId config llm opening, s.sessions.lookup sessionId = none ∧
        uuid.parseStr sessionId = some chatId ∧
        t = { s.insertFresh sessionId chatId config llm with opening } ∧
        ((∀ other session, s.sessions.lookup other = some session → session.chatId ≠ chatId) ∨
          action = .loadSession sessionId config)) ∨
      ∃ number sessionId id session, s.sessions.lookup sessionId = some session ∧
        uuid.parseStr sessionId = some id ∧ s.locked session.promptLock = false ∧
        s.turns number = none ∧
        t = startTurn baseline s number sessionId id session := by
  cases agentStep_moves stepped with
  | fail => exact .inl (Quiet.refl s)
  | create chatId config opening apart =>
      have unused : s.sessions.lookup (uuid.toText chatId) = none := by
        rw [Option.eq_none_iff_forall_ne_some]
        intro session found
        have parsed := spelled _ session found
        rw [uuid.parseStr_toText, Option.some.injEq] at parsed
        exact apart _ session found parsed.symm
      exact .inr
        (.inr (.inl ⟨_, chatId, config, _, _, unused, uuid.parseStr_toText chatId, rfl,
            .inl apart⟩))
  | load sessionId config id opening parsed saved unknown =>
      exact .inr (.inr (.inl ⟨sessionId, id, config, _, _, unknown, parsed, rfl, .inr rfl⟩))
  | @reload sessionId config opening live found =>
      have same : live.SameControl { live with lastActive := s.now } := ⟨rfl, rfl, rfl⟩
      exact .inl { Quiet.insertSession found same with }
  | evictIdle opening =>
      exact .inl (Quiet.sweep (fun id state => lookup_of_evictIdle)
        fun id state found held => lookup_evictIdle found held _ _)
  | evictExcess opening =>
      exact .inl (Quiet.sweep (fun id state => lookup_of_evictExcess)
        fun id state found held => lookup_evictExcess found held _)
  | opened opening opened => exact .inl { Quiet.refl s with }
  | startTurn number sessionId id unused parsed found idle =>
      exact .inr (.inr (.inr ⟨number, sessionId, id, _, found, parsed, idle, unused, rfl⟩))
  | setStage _ number stage leases saved found =>
      exact .inl (Quiet.of_eq (Quiet.setStage stage found) rfl rfl rfl rfl rfl rfl)
  | endTurn _ number saved found =>
    exact .inl (Quiet.of_eq (Quiet.endTurn found) rfl rfl rfl rfl rfl rfl)
  | cancel sessionId found =>
      exact .inr (.inl ⟨sessionId, _, _, rfl, found, Quiet.updateSession fun _ =>
        ⟨rfl, rfl, rfl⟩, rfl⟩)
  | applyConfig sessionId config => exact .inl (Quiet.updateSession fun _ => ⟨rfl, rfl, rfl⟩)
  | setMode sessionId mode => exact .inl (Quiet.updateSession fun _ => ⟨rfl, rfl, rfl⟩)
  | rehash entries same =>
      have lookup : ∀ id,
          AList.lookup id (⟨entries, (List.perm_nodupKeys same).mpr s.sessions.nodupKeys⟩ :
            Sessions) =
          s.sessions.lookup id := fun id => AList.perm_lookup same
      exact .inl (Quiet.sweep (fun id state found => (lookup id).symm.trans found)
        fun id state found _ => (lookup id).trans found)
  | beside => exact .inl { Quiet.refl s with }

end Steps

/-- Locks and tokens belong to one session each, and every turn holds those of a live session. -/
structure TurnInvariant (uuid : UuidCrate) (s : AgentState) : Prop where
  spelled : ∀ id session, s.sessions.lookup id = some session →
    uuid.parseStr id = some session.chatId
  fresh : ∀ id session, s.sessions.lookup id = some session →
    session.cancel < s.nextToken ∧ session.promptLock < s.nextLock
  tokensApart : ∀ first second one two, s.sessions.lookup first = some one →
    s.sessions.lookup second = some two → one.cancel = two.cancel → first = second
  locksApart : ∀ first second one two, s.sessions.lookup first = some one →
    s.sessions.lookup second = some two → one.promptLock = two.promptLock → first = second
  present : ∀ number turn, s.turns number = some turn → ∃ session,
    s.sessions.lookup turn.sessionId = some session ∧
    session.promptLock = turn.promptLock ∧ session.cancel = turn.cancel ∧
      session.chatId = turn.chatId
  held : ∀ number turn, s.turns number = some turn → s.locked turn.promptLock
  single : ∀ first second one two, s.turns first = some one → s.turns second = some two →
    one.promptLock = two.promptLock → first = second
  used : ∀ token, s.cancelled token → token < s.nextToken

section Invariant
variable {uuid : UuidCrate} {baseline : AgentConfig} {s t : AgentState}

theorem TurnInvariant.initial (start : (agentMachine uuid baseline).start s) :
    TurnInvariant uuid s := by
  obtain ⟨empty, _, idle, _, calm⟩ := start
  have nothing : ∀ id, s.sessions.lookup id = none := by
    intro id
    rw [AList.lookup_eq_none, AList.mem_keys, AList.keys, empty]
    simp
  refine ⟨?_, ?_, ?_, ?_, ?_, ?_, ?_, ?_⟩ <;> intros <;> simp_all

/-- A quiet step keeps the invariant. -/
theorem TurnInvariant.quiet (inv : TurnInvariant uuid s) (quiet : Quiet s t) :
    TurnInvariant uuid t where
  spelled id session found := by
    obtain ⟨before, known, same⟩ := quiet.back id session found
    rw [same.2.2]
    exact inv.spelled id before known
  fresh id session found := by
    obtain ⟨before, known, same⟩ := quiet.back id session found
    rw [same.1, same.2.1, quiet.nextToken, quiet.nextLock]
    exact inv.fresh id before known
  tokensApart first second one two found other equal := by
    obtain ⟨before, known, same⟩ := quiet.back first one found
    obtain ⟨before', known', same'⟩ := quiet.back second two other
    exact inv.tokensApart first second before before' known known'
      (by rw [← same.1, equal, same'.1])
  locksApart first second one two found other equal := by
    obtain ⟨before, known, same⟩ := quiet.back first one found
    obtain ⟨before', known', same'⟩ := quiet.back second two other
    exact inv.locksApart first second before before' known known'
      (by rw [← same.2.1, equal, same'.2.1])
  present number turn running := by
    obtain ⟨earlier, known, continues⟩ := quiet.turns number turn running
    obtain ⟨session, found, lock, token, chat⟩ := inv.present number earlier known
    have held := inv.held number earlier known
    obtain ⟨after, kept, same⟩ := quiet.forth _ session found (lock ▸ held)
    rw [continues]
    exact ⟨after, kept, same.2.1.trans lock, same.1.trans token, same.2.2.trans chat⟩
  held number turn running := by
    obtain ⟨earlier, known, continues⟩ := quiet.turns number turn running
    have lock : turn.promptLock = earlier.promptLock := by rw [continues]
    apply quiet.locked number turn running
    · intro other held' found equal
      exact inv.single other number held' earlier found known (equal.trans lock)
    · rw [lock]
      exact inv.held number earlier known
  single first second one two running also equal := by
    obtain ⟨earlier, known, continues⟩ := quiet.turns first one running
    obtain ⟨earlier', known', continues'⟩ := quiet.turns second two also
    rw [continues, continues'] at equal
    exact inv.single first second earlier earlier' known known' equal
  used token set := by
    rw [quiet.nextToken]
    exact inv.used token (quiet.cancelled ▸ set)

/-- Cancelling the token of a live session keeps the invariant. -/
theorem TurnInvariant.cancel (inv : TurnInvariant uuid s) (quiet : Quiet s t) {sessionId : String}
    {session : SessionState} (found : s.sessions.lookup sessionId = some session) :
    TurnInvariant uuid { t with cancelled := Function.update s.cancelled session.cancel true } where
  __ := inv.quiet quiet
  used token set := by
    show token < t.nextToken
    rw [quiet.nextToken]
    simp only [Function.update_apply] at set
    split at set
    · rename_i own
      rw [own]
      exact (inv.fresh sessionId session found).1
    · exact inv.used token set

/-- A fresh session has a lock and a token that nobody used. -/
theorem TurnInvariant.insertFresh (inv : TurnInvariant uuid s) {sessionId : String} {chatId : Uuid}
    (config : AgentConfig) (llm : Option LlmClient) (opening : Option Opening)
    (parsed : uuid.parseStr sessionId = some chatId) (unused : s.sessions.lookup sessionId = none) :
    TurnInvariant uuid { s.insertFresh sessionId chatId config llm with opening } := by
  have lookup : ∀ id session, (s.insertFresh sessionId chatId config llm).sessions.lookup
      id = some session → (id = sessionId ∧ session = s.freshSession chatId config llm) ∨
        (id ≠ sessionId ∧ s.sessions.lookup id = some session) := by
    intro id session found
    by_cases own : id = sessionId
    · subst own
      rw [AgentState.insertFresh, AgentState.insertSession, AList.lookup_insert,
        Option.some.injEq] at found
      exact .inl ⟨rfl, found.symm⟩
    · rw [AgentState.insertFresh, AgentState.insertSession, AList.lookup_insert_ne own] at found
      exact .inr ⟨own, found⟩
  refine ⟨?_, ?_, ?_, ?_, ?_, inv.held, inv.single, ?_⟩
  · intro id session found
    rcases lookup id session found with ⟨rfl, rfl⟩ | ⟨_, known⟩
    · exact parsed
    · exact inv.spelled id session known
  · intro id session found
    rcases lookup id session found with ⟨rfl, rfl⟩ | ⟨_, known⟩
    · exact ⟨Nat.lt_succ_self _, Nat.lt_succ_self _⟩
    · have bound := inv.fresh id session known
      exact ⟨Nat.lt_succ_of_lt bound.1, Nat.lt_succ_of_lt bound.2⟩
  · intro first second one two found other equal
    rcases lookup first one found with ⟨rfl, rfl⟩ | ⟨_, known⟩ <;>
      rcases lookup second two other with ⟨rfl, rfl⟩ | ⟨_, known'⟩
    · rfl
    · exact absurd equal.symm (Nat.ne_of_lt (inv.fresh second two known').1)
    · exact absurd equal (Nat.ne_of_lt (inv.fresh first one known).1)
    · exact inv.tokensApart first second one two known known' equal
  · intro first second one two found other equal
    rcases lookup first one found with ⟨rfl, rfl⟩ | ⟨_, known⟩ <;>
      rcases lookup second two other with ⟨rfl, rfl⟩ | ⟨_, known'⟩
    · rfl
    · exact absurd equal.symm (Nat.ne_of_lt (inv.fresh second two known').2)
    · exact absurd equal (Nat.ne_of_lt (inv.fresh first one known).2)
    · exact inv.locksApart first second one two known known' equal
  · intro number turn running
    obtain ⟨session, found, rest⟩ := inv.present number turn running
    have different : turn.sessionId ≠ sessionId := by
      intro same
      rw [same, unused] at found
      simp at found
    exact ⟨session, (AList.lookup_insert_ne different).trans found, rest⟩
  · intro token set
    exact Nat.lt_succ_of_lt (inv.used token set)

/-- The sessions when a turn starts: its own one gets the fresh token, and the others stay. -/
theorem startTurn_lookup {number : Nat} {sessionId other : String} {id : Uuid}
    {session state : SessionState} (found : s.sessions.lookup sessionId = some session)
    (present : (startTurn baseline s number sessionId id session).sessions.lookup other =
      some state) :
    ∃ before, s.sessions.lookup other = some before ∧ state.promptLock = before.promptLock ∧
      state.chatId = before.chatId ∧
      ((other = sessionId ∧ state.cancel = s.nextToken) ∨
          (other ≠ sessionId ∧ state.cancel = before.cancel)) := by
  by_cases own : other = sessionId
  · subst own
    rw [startTurn, AList.lookup_insert, Option.some.injEq] at present
    exact ⟨session, found, by rw [← present], by rw [← present], .inl ⟨rfl, by rw [← present]⟩⟩
  · rw [startTurn, AList.lookup_insert_ne own] at present
    exact ⟨state, present, rfl, rfl, .inr ⟨own, rfl⟩⟩

/-- The turns when a turn starts on an idle session: the new one, and
those that hold other locks. -/
theorem TurnInvariant.startTurn_turns (inv : TurnInvariant uuid s) {number other : Nat}
    {sessionId : String} {id : Uuid}
    {session : SessionState} {turn : Turn} (idle : s.locked session.promptLock = false)
    (running : (startTurn baseline s number sessionId id session).turns other = some turn) :
    (other = number ∧ turn.sessionId = sessionId ∧ turn.promptLock = session.promptLock ∧
      turn.cancel = s.nextToken ∧ turn.chatId = session.chatId) ∨
      (s.turns other = some turn ∧ turn.promptLock ≠ session.promptLock) := by
  simp only [Runtime.startTurn, Function.update_apply] at running
  split at running
  · rename_i own
    cases running
    exact .inl ⟨own, rfl, rfl, rfl, rfl⟩
  · refine .inr ⟨running, fun same => ?_⟩
    have held := inv.held other turn running
    rw [same, idle] at held
    exact absurd held (by decide)

/-- A turn starts on an idle session with a fresh token. -/
theorem TurnInvariant.startTurn (inv : TurnInvariant uuid s) {number : Nat} {sessionId : String}
    {id : Uuid} {session : SessionState} (found : s.sessions.lookup sessionId = some session)
    (idle : s.locked session.promptLock = false) :
    TurnInvariant uuid (startTurn baseline s number sessionId id session) := by
  refine ⟨?_, ?_, ?_, ?_, ?_, ?_, ?_, ?_⟩
  · intro other state present
    obtain ⟨before, known, _, chat, _⟩ := startTurn_lookup found present
    rw [chat]
    exact inv.spelled other before known
  · intro other state present
    obtain ⟨before, known, lock, _, token⟩ := startTurn_lookup found present
    have bound := inv.fresh other before known
    rw [lock]
    refine ⟨?_, bound.2⟩
    show state.cancel < s.nextToken + 1
    rcases token with ⟨_, token⟩ | ⟨_, token⟩ <;> omega
  · intro first second one two present other equal
    obtain ⟨before, known, _, _, token⟩ := startTurn_lookup found present
    obtain ⟨before', known', _, _, token'⟩ := startTurn_lookup found other
    have bound := (inv.fresh first before known).1
    have bound' := (inv.fresh second before' known').1
    rcases token with ⟨own, token⟩ | ⟨_, token⟩ <;> rcases token' with ⟨own', token'⟩ | ⟨_, token'⟩
    · rw [own, own']
    · omega
    · omega
    · exact inv.tokensApart first second before before' known known' (by omega)
  · intro first second one two present other equal
    obtain ⟨before, known, lock, _, _⟩ := startTurn_lookup found present
    obtain ⟨before', known', lock', _, _⟩ := startTurn_lookup found other
    exact inv.locksApart first second before before' known known' (by omega)
  · intro other turn running
    rcases inv.startTurn_turns idle running with ⟨_, own, lock, token, chat⟩ | ⟨running, different⟩
    · rw [own]
      exact ⟨_, AList.lookup_insert _, lock.symm, token.symm, chat.symm⟩
    · obtain ⟨state, present, lock, rest⟩ := inv.present other turn running
      have apart : turn.sessionId ≠ sessionId := by
        intro same
        rw [same, found, Option.some.injEq] at present
        exact different (by rw [← lock, present])
      exact ⟨state, (AList.lookup_insert_ne apart).trans present, lock, rest⟩
  · intro other turn running
    simp only [Runtime.startTurn, Function.update_apply]
    split
    · rfl
    · rename_i different
      rcases inv.startTurn_turns idle running with ⟨_, _, lock, _⟩ | ⟨running, _⟩
      · exact absurd lock different
      · exact inv.held other turn running
  · intro first second one two running also equal
    rcases inv.startTurn_turns idle running with ⟨own, _, lock, _⟩ | ⟨running, different⟩ <;>
      rcases inv.startTurn_turns idle also with ⟨own', _, lock', _⟩ | ⟨also, different'⟩
    · rw [own, own']
    · exact absurd (equal.symm.trans lock) different'
    · exact absurd (equal.trans lock') different
    · exact inv.single first second one two running also equal
  · intro token set
    exact Nat.lt_succ_of_lt (inv.used token set)

/-- Every step of every call keeps the invariant. -/
theorem TurnInvariant.step (inv : TurnInvariant uuid s) {action : Action}
    (stepped : agentStep uuid baseline s action = some t) : TurnInvariant uuid t := by
  rcases agentStep_cases inv.spelled stepped with quiet | ⟨_, _, _, _, found, quiet, rfl⟩ |
    ⟨_, _, _, _, _, unused, parsed, rfl, _⟩ | ⟨_, _, _, _, found, _, idle, _, rfl⟩
  · exact inv.quiet quiet
  · exact inv.cancel quiet found
  · exact inv.insertFresh _ _ _ parsed unused
  · exact inv.startTurn found idle

theorem TurnInvariant.of_reachable (reached : (agentMachine uuid baseline).Reachable s) :
    TurnInvariant uuid s :=
  reached.invariant (fun _ start => TurnInvariant.initial start) fun _ _ _ inv _ stepped =>
    inv.step stepped

/-- A running turn is cancelled by a cancel of its own session id and by nothing else. -/
theorem TurnInvariant.cancelled_iff (inv : TurnInvariant uuid s) {action : Action}
    (stepped : agentStep uuid baseline s action = some t) {number : Nat} {turn : Turn}
    (running : s.turns number = some turn) :
    t.cancelled turn.cancel = true ↔ s.cancelled turn.cancel = true ∨
      action = .cancelSession turn.sessionId := by
  obtain ⟨own, present, _, token, _⟩ := inv.present number turn running
  by_cases named : action = .cancelSession turn.sessionId
  · subst named
    simp only [agentStep, present] at stepped
    split at stepped
    · simp at stepped
    · cases stepped
      simp [token]
  · rw [or_iff_left named]
    rcases agentStep_cases inv.spelled stepped with
      quiet | ⟨sessionId, session, middle, rfl, found, _, rfl⟩ |
      ⟨_, _, _, _, _, _, _, rfl, _⟩ | ⟨_, _, _, _, _, _, _, _, rfl⟩
    · rw [quiet.cancelled]
    · have apart : turn.cancel ≠ session.cancel := by
        intro same
        have equal :=
          inv.tokensApart turn.sessionId sessionId own session present found (token.trans same)
        exact named (by rw [equal])
      simp only [Function.update_of_ne apart]
    · rfl
    · rfl

/-- A turn that just started has a token that nobody cancelled. -/
theorem TurnInvariant.cancelled_start (inv : TurnInvariant uuid s) {action : Action}
    (stepped : agentStep uuid baseline s action = some t) {number : Nat} {turn : Turn}
    (before : s.turns number = none) (running : t.turns number = some turn) :
    t.cancelled turn.cancel = false := by
  rcases agentStep_cases inv.spelled stepped with quiet | ⟨_, _, _, _, _, quiet, rfl⟩ |
    ⟨_, _, _, _, _, _, _, rfl, _⟩ | ⟨started, sessionId, id, session, _, _, _, _, rfl⟩
  · obtain ⟨earlier, known, _⟩ := quiet.turns number turn running
    simp [before] at known
  · obtain ⟨earlier, known, _⟩ := quiet.turns number turn running
    simp [before] at known
  · have known : s.turns number = some turn := running
    simp [before] at known
  · simp only [Runtime.startTurn, Function.update_apply] at running
    split at running
    · cases running
      rw [Bool.eq_false_iff]
      intro set
      exact absurd (inv.used s.nextToken set) (Nat.lt_irrefl _)
    · simp [before] at running

/-- A running turn is the only one of its session, and the session in the map has its prompt lock
and its token. So a cancel of that session cancels this turn and no other, and no earlier cancel
reaches a turn that starts. -/
theorem runningTurn_reachable (reached : (agentMachine uuid baseline).Reachable s) :
    (∀ number turn, s.turns number = some turn → ∃ session,
        s.sessions.lookup turn.sessionId = some session ∧
      session.promptLock = turn.promptLock ∧ session.cancel = turn.cancel) ∧
    (∀ first second one two, s.turns first = some one → s.turns second = some two →
      one.sessionId = two.sessionId → first = second) ∧
    ∀ action t, (agentMachine uuid baseline).step s action = some t →
      (∀ number turn, s.turns number = some turn → (t.cancelled turn.cancel = true ↔
        s.cancelled turn.cancel = true ∨ action = .cancelSession turn.sessionId)) ∧
      ∀ number turn, s.turns number = none → t.turns number = some turn →
        t.cancelled turn.cancel = false := by
  have inv := TurnInvariant.of_reachable reached
  refine ⟨?_, ?_, ?_⟩
  · intro number turn running
    obtain ⟨session, found, lock, token, _⟩ := inv.present number turn running
    exact ⟨session, found, lock, token⟩
  · intro first second one two running also same
    obtain ⟨session, found, lock, _⟩ := inv.present first one running
    obtain ⟨session', found', lock', _⟩ := inv.present second two also
    rw [same, found', Option.some.injEq] at found
    exact inv.single first second one two running also (by rw [← lock, ← lock', found])
  · intro action t stepped
    exact ⟨fun number turn running => inv.cancelled_iff stepped running,
      fun number turn before running => inv.cancelled_start stepped before running⟩

end Invariant

/-- This is the default configuration of the sample runs. -/
def sampleConfig : AgentConfig :=
  ⟨"ollama", .openAiCompatible, "http://localhost:11434/v1", "", "llama3", 50, 120, none, none,
    false, false⟩

def sampleId : Uuid := 0x67e5504410b1426f9247bb680e5fe0c8

/-- The text under which the sample session is opened first. -/
def sampleText : String := "67e55044-10b1-426f-9247-bb680e5fe0c8"

/-- A runtime before its first call, without saved conversations. -/
def emptyState : AgentState :=
  ⟨∅, none, none, fun _ => false, 0, fun _ => false, 0, fun _ => none, fun _ => false,
    fun _ => .nobody, 0⟩

/-- A session is opened and a turn runs in it. -/
def sampleTurn : List Action :=
  [.newSession sampleId sampleConfig, .continueOpening, .continueOpening, .continueOpening,
    .prompt 0 sampleText, .acquireLease 0 true, .prepare 0 true true]

theorem emptyState_start : (agentMachine Uuid.crate sampleConfig).start emptyState :=
  ⟨rfl, rfl, fun _ => rfl, fun _ => rfl, fun _ => rfl⟩

/-- The id of a second session. -/
def otherId : Uuid := 0x0e5504410b1426f9247bb680e5fe0c81

def otherText : String := "0e550441-0b14-26f9-247b-b680e5fe0c81"

/-- While the turn runs, its session is prompted again, which is refused, and loaded again, a second
session is opened with a turn of its own, and the first turn is cancelled. -/
def twoTurns : List Action :=
  sampleTurn ++ [.prompt 1 sampleText, .loadSession sampleText sampleConfig, .continueOpening,
    .continueOpening, .continueOpening, .newSession otherId sampleConfig, .continueOpening,
    .continueOpening, .continueOpening, .prompt 1 otherText, .acquireLease 1 true,
      .prepare 1 true true, .cancelSession sampleText]

/-- Both turns of the sample run have their sessions, and only the first one is cancelled. -/
theorem runningTurn_sample : ∃ s one two, s.turns 0 = some one ∧ s.turns 1 = some two ∧
    one.stage = .running ∧ two.stage = .running ∧
    s.cancelled one.cancel = true ∧ s.cancelled two.cancel = false ∧
    (∀ number turn, s.turns number = some turn → ∃ session,
        s.sessions.lookup turn.sessionId = some session ∧
      session.promptLock = turn.promptLock ∧ session.cancel = turn.cancel) ∧
    (∀ first second one two, s.turns first = some one → s.turns second = some two →
      one.sessionId = two.sessionId → first = second) ∧
    ∀ action t, (agentMachine Uuid.crate sampleConfig).step s action = some t →
      (∀ number turn, s.turns number = some turn → (t.cancelled turn.cancel = true ↔
        s.cancelled turn.cancel = true ∨ action = .cancelSession turn.sessionId)) ∧
      ∀ number turn, s.turns number = none → t.turns number = some turn →
        t.cancelled turn.cancel = false := by
  have executed : (agentMachine Uuid.crate sampleConfig).exec emptyState twoTurns = some _ := rfl
  exact ⟨_, _, _, rfl, rfl, rfl, rfl, rfl, rfl,
    runningTurn_reachable (Machine.reachable_of_exec emptyState_start executed)⟩

end Openheim.Runtime
