import Openheim.Runtime.RunningTurns

/-
This file shows when two turns of one runtime never run on the same conversation.
-/

namespace Openheim.Runtime

/-- A load must not open a conversation that is live under another spelling of its id. -/
def OneSpelling (uuid : UuidCrate) (s : AgentState) : Action → Prop
  | .loadSession sessionId _ => ∀ other session, s.sessions.lookup other = some session →
      uuid.parseStr sessionId = some session.chatId → other = sessionId
  | _ => True

/-- No conversation is live under two ids. -/
def OneSession (s : AgentState) : Prop :=
  ∀ first second one two, s.sessions.lookup first = some one → s.sessions.lookup second = some two →
    one.chatId = two.chatId → first = second

section Runs
variable {uuid : UuidCrate} {baseline : AgentConfig} {s t : AgentState}

theorem OneSession.quiet (one : OneSession s) (quiet : Quiet s t) : OneSession t := by
  intro first second state state' found other equal
  obtain ⟨before, known, same⟩ := quiet.back first state found
  obtain ⟨before', known', same'⟩ := quiet.back second state' other
  exact one first second before before' known known' (by rw [← same.2.2, equal, same'.2.2])

/-- A fresh session keeps conversations apart if nobody else has its conversation. -/
theorem OneSession.insertFresh (one : OneSession s) {sessionId : String} {chatId : Uuid}
    {config : AgentConfig} {llm : Option LlmClient} {opening : Option Opening}
    (alone : ∀ other session, s.sessions.lookup other = some session → session.chatId = chatId →
      other = sessionId) :
    OneSession { s.insertFresh sessionId chatId config llm with opening } := by
  have lookup : ∀ id session, (s.insertFresh sessionId chatId config llm).sessions.lookup
      id = some session → (id = sessionId ∧ session.chatId = chatId) ∨
          s.sessions.lookup id = some session := by
    intro id session found
    by_cases own : id = sessionId
    · subst own
      rw [AgentState.insertFresh, AgentState.insertSession, AList.lookup_insert,
        Option.some.injEq] at found
      exact .inl ⟨rfl, found ▸ rfl⟩
    · rw [AgentState.insertFresh, AgentState.insertSession, AList.lookup_insert_ne own] at found
      exact .inr found
  intro first second state state' found other equal
  rcases lookup first state found with ⟨own, chat⟩ | known <;>
    rcases lookup second state' other with ⟨own', chat'⟩ | known'
  · rw [own, own']
  · rw [own, alone second state' known' (equal.symm.trans chat)]
  · rw [own', alone first state known (equal.trans chat')]
  · exact one first second state state' known known' equal

theorem OneSession.startTurn (one : OneSession s) {number : Nat} {sessionId : String} {id : Uuid}
    {session : SessionState} (found : s.sessions.lookup sessionId = some session) :
    OneSession (Runtime.startTurn baseline s number sessionId id session) := by
  have lookup : ∀ other state,
      (Runtime.startTurn baseline s number sessionId id session).sessions.lookup other =
      some state → ∃ before, s.sessions.lookup other = some before ∧
          state.chatId = before.chatId := by
    intro other state present
    by_cases own : other = sessionId
    · subst own
      rw [Runtime.startTurn, AList.lookup_insert, Option.some.injEq] at present
      exact ⟨session, found, by rw [← present]⟩
    · rw [Runtime.startTurn, AList.lookup_insert_ne own] at present
      exact ⟨state, present, rfl⟩
  intro first second state state' present other equal
  obtain ⟨before, known, chat⟩ := lookup first state present
  obtain ⟨before', known', chat'⟩ := lookup second state' other
  exact one first second before before' known known' (by rw [← chat, equal, chat'])

theorem OneSession.step (one : OneSession s) (inv : TurnInvariant uuid s) {action : Action}
    (spelling : OneSpelling uuid s action) (stepped : agentStep uuid baseline s action = some t) :
    OneSession t := by
  rcases agentStep_cases inv.spelled stepped with quiet | ⟨_, _, _, _, _, quiet, rfl⟩ |
    ⟨sessionId, chatId, config, _, _, _, parsed, rfl, apart | rfl⟩ | ⟨_, _, _, _, found,
      _, _, _, rfl⟩
  · exact one.quiet quiet
  · have kept := one.quiet quiet
    exact kept
  · exact one.insertFresh fun other session found same => absurd same (apart other session found)
  · exact one.insertFresh fun other session found same =>
      spelling other session found (same ▸ parsed)
  · exact one.startTurn found

/-- If no load opens a live conversation under another spelling of its id, then a conversation never
has two turns at once. -/
theorem oneTurnPerConversation
    (reached : (agentMachine uuid baseline).ReachableUnder (OneSpelling uuid) s) :
    ∀ first second one two, s.turns first = some one → s.turns second = some two →
      one.chatId = two.chatId → first = second := by
  have kept : TurnInvariant uuid s ∧ OneSession s := by
    apply reached.invariant
    · intro first start
      refine ⟨TurnInvariant.initial start, fun id _ state _ found => ?_⟩
      have member := AList.mem_lookup_iff.mp found
      simp [start.1] at member
    · intro before action after inv spelling stepped
      exact ⟨inv.1.step stepped, inv.2.step inv.1 spelling stepped⟩
  intro first second one two running also same
  obtain ⟨session, found, lock, _, chat⟩ := kept.1.present first one running
  obtain ⟨session', found', lock', _, chat'⟩ := kept.1.present second two also
  have ids := kept.2 _ _ session session' found found' (by rw [chat, chat', same])
  rw [ids, found', Option.some.injEq] at found
  exact kept.1.single first second one two running also (by rw [← lock, ← lock', found])

end Runs

/-- The sample id without its hyphens, which parses to the same conversation. -/
def sampleSpelling : String := "67e5504410b1426f9247bb680e5fe0c8"

/-- While a turn runs, its conversation is loaded under a second spelling and prompted there. -/
theorem two_turns_of_one_conversation : ∃ (s : AgentState) (one two : Turn),
    (agentMachine Uuid.crate sampleConfig).Reachable s ∧
    s.turns 0 = some one ∧ s.turns 1 = some two ∧ one.stage = .running ∧ two.stage = .running ∧
    one.chatId = two.chatId := by
  have executed : (agentMachine Uuid.crate sampleConfig).exec emptyState (sampleTurn ++
    [.loadSession sampleSpelling sampleConfig, .continueOpening, .continueOpening, .continueOpening,
      .prompt 1 sampleSpelling, .acquireLease 1 true, .prepare 1 true true]) = some _ := rfl
  exact ⟨_, _, _, Machine.reachable_of_exec emptyState_start executed, rfl, rfl, rfl, rfl, rfl⟩

/-- The sample run loads its session under the same spelling only, so that
each conversation has one turn. -/
theorem oneTurn_sample :
    ∃ (s : AgentState) (one two : Turn), s.turns 0 = some one ∧ s.turns 1 = some two ∧
    one.chatId ≠ two.chatId ∧
    ∀ first second one two, s.turns first = some one → s.turns second = some two →
      one.chatId = two.chatId → first = second := by
  have executed : (agentMachine Uuid.crate sampleConfig).exec emptyState twoTurns = some _ := rfl
  have permitted : (agentMachine Uuid.crate sampleConfig).Permits (OneSpelling Uuid.crate)
      emptyState twoTurns := by
    iterate 8
      refine Machine.permits_cons trivial rfl ?_
    refine Machine.permits_cons (fun other session found _ => ?_) rfl ?_
    · cases List.mem_singleton.mp (AList.mem_lookup_iff.mp found)
      rfl
    iterate 11
      refine Machine.permits_cons trivial rfl ?_
    trivial
  have apart : (sampleId : Uuid) ≠ otherId := by decide
  exact ⟨_, _, _, rfl, rfl, apart,
    oneTurnPerConversation ⟨emptyState, emptyState_start, Machine.exec_runs permitted executed⟩⟩

end Openheim.Runtime
