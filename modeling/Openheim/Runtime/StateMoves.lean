import Openheim.Runtime.State

/-
What a step of the runtime does, said once for every step.
-/

namespace Openheim.Runtime

/-- The outcomes of a step, each with the checks that it has passed. -/
inductive AgentMove (uuid : UuidCrate) (baseline : AgentConfig) (s : AgentState) :
    Action → AgentState → Prop where
  | fail (action : Action) : AgentMove uuid baseline s action s
  | create (chatId : Uuid) (config : AgentConfig) (opening : Option Opening)
      (apart : ∀ other session, s.sessions.lookup other = some session → session.chatId ≠ chatId) :
      AgentMove uuid baseline s (.newSession chatId config)
        { s.insertFresh (uuid.toText chatId) chatId config (sessionLlm baseline config) with
          opening }
  | load (sessionId : String) (config : AgentConfig) (id : Uuid) (opening : Option Opening)
      (parsed : uuid.parseStr sessionId = some id) (saved : s.saved id)
      (unknown : s.sessions.lookup sessionId = none) :
      AgentMove uuid baseline s (.loadSession sessionId config)
        { s.insertFresh sessionId id config (sessionLlm baseline config) with opening }
  | reload (sessionId : String) (config : AgentConfig) (opening : Option Opening)
      {live : SessionState}
      (found : s.sessions.lookup sessionId = some live) :
      AgentMove uuid baseline s (.loadSession sessionId config)
        { s.insertSession sessionId { live with lastActive := s.now } with opening }
  | evictIdle (opening : Option Opening) :
      AgentMove uuid baseline s .continueOpening
        { s with sessions := evictIdle s.locked s.sessions s.now sessionIdleEvictionAfter, opening }
  | evictExcess (opening : Option Opening) :
      AgentMove uuid baseline s .continueOpening
        { s with sessions := evictExcess s.locked s.sessions maxLiveSessions, opening }
  | opened (opening : Option Opening) (opened : Option (Except Error Opened)) :
      AgentMove uuid baseline s .continueOpening { s with opening, opened }
  | startTurn (number : Nat) (sessionId : String) (id : Uuid) {session : SessionState}
      (unused : s.turns number = none) (parsed : uuid.parseStr sessionId = some id)
      (found : s.sessions.lookup sessionId = some session)
      (idle : promptInFlight s.locked session = false) :
      AgentMove uuid baseline s (.prompt number sessionId)
        (startTurn baseline s number sessionId id session)
  | setStage (action : Action) (number : Nat) {turn : Turn} (stage : TurnStage)
      (leases : Uuid → LeaseHolder)
      (saved : Uuid → Bool) (found : s.turns number = some turn) :
      AgentMove uuid baseline s action (AgentState.setStage { s with
        leases, saved } number turn stage)
  | endTurn (action : Action) (number : Nat) {turn : Turn} (saved : Uuid → Bool)
      (found : s.turns number = some turn) :
      AgentMove uuid baseline s action (AgentState.endTurn { s with saved } number turn)
  | cancel (sessionId : String) {session : SessionState}
      (found : s.sessions.lookup sessionId = some session) :
      AgentMove uuid baseline s (.cancelSession sessionId)
        { updateSession s sessionId id with
          cancelled := Function.update s.cancelled session.cancel true }
  | applyConfig (sessionId : String) (config : AgentConfig) :
      AgentMove uuid baseline s (.applySessionConfig sessionId config)
        (updateSession s sessionId fun session =>
          { session with config, llm := sessionLlm baseline config })
  | setMode (sessionId : String) (mode : AgentMode) :
      AgentMove uuid baseline s (.setSessionMode sessionId mode)
        (updateSession s sessionId fun session => { session with mode })
  | rehash (entries : List (Sigma fun _ : String => SessionState))
      (same : entries.Perm s.sessions.entries) :
      AgentMove uuid baseline s (.rehash entries)
        { s with sessions := ⟨entries, (List.perm_nodupKeys same).mpr s.sessions.nodupKeys⟩ }
  | beside (action : Action) (leases : Uuid → LeaseHolder) (now : Instant) :
      AgentMove uuid baseline s action { s with leases, now }

/-- Every step of the runtime has one of these outcomes. -/
theorem agentStep_moves {uuid : UuidCrate} {baseline : AgentConfig} {s t : AgentState}
    {action : Action}
    (stepped : agentStep uuid baseline s action = some t) : AgentMove uuid baseline s action t := by
  cases action with
  | newSession chatId config =>
      simp only [agentStep] at stepped
      split at stepped
      · cases stepped
      · next free =>
        cases stepped
        refine .create chatId config _ fun other session found same => free (.inr (.inr ?_))
        exact List.any_eq_true.mpr ⟨⟨other, session⟩, AList.mem_lookup_iff.mp found,
          by simpa using same⟩
  | loadSession sessionId config =>
      simp only [agentStep] at stepped
      split at stepped
      · cases stepped
      · split at stepped
        · cases stepped
          exact .fail _
        · next id parsed =>
          split at stepped
          · next saved =>
            cases stepped
            unfold AgentState.insertOrKeepLive
            split
            · next live found => exact .reload sessionId config _ found
            · next unknown => exact .load sessionId config id _ parsed saved unknown
          · cases stepped
            exact .fail _
  | continueOpening =>
      obtain ⟨opening, _, rfl⟩ := Option.map_eq_some_iff.mp stepped
      unfold continueOpening
      split
      · exact .evictIdle _
      · exact .evictExcess _
      · exact .opened _ _
  | prompt number sessionId =>
      simp only [agentStep] at stepped
      split at stepped
      · cases stepped
      · next free =>
        simp only [not_or, Option.not_isSome_iff_eq_none] at free
        split at stepped
        · cases stepped
          exact .fail _
        · next id parsed =>
          split at stepped
          · cases stepped
            exact .fail _
          · next session found =>
            split at stepped
            · cases stepped
              exact .fail _
            · next idle =>
              cases stepped
              exact .startTurn number sessionId id free.2 parsed found (by simpa using idle)
  | acquireLease number ioOk =>
      simp only [agentStep] at stepped
      split at stepped
      · next turn found =>
        split at stepped
        · split at stepped
          · cases stepped
            exact .setStage _ number .leased _ s.saved found
          · cases stepped
            exact .endTurn _ number s.saved found
        · cases stepped
      · cases stepped
  | prepare number resolved built =>
      simp only [agentStep] at stepped
      split at stepped
      · next turn found =>
        split at stepped
        · split at stepped
          · cases stepped
            split
            · exact .setStage _ number .running s.leases _ found
            · exact .endTurn _ number _ found
          · cases stepped
            exact .endTurn _ number s.saved found
        · cases stepped
      · cases stepped
  | finish number =>
      obtain ⟨turn, found, rfl⟩ := Option.map_eq_some_iff.mp stepped
      exact .endTurn _ number s.saved found
  | cancelSession sessionId =>
      simp only [agentStep] at stepped
      split at stepped
      · cases stepped
      · split at stepped
        · next session found =>
          cases stepped
          exact .cancel sessionId found
        · cases stepped
          exact .fail _
  | applySessionConfig sessionId config =>
      simp only [agentStep] at stepped
      split at stepped
      · cases stepped
      · cases stepped
        exact .applyConfig sessionId config
  | setSessionMode sessionId mode =>
      simp only [agentStep] at stepped
      split at stepped
      · cases stepped
      · cases stepped
        exact .setMode sessionId mode
  | rehash entries =>
      simp only [agentStep] at stepped
      split at stepped
      · next same =>
        cases stepped
        exact .rehash entries same
      · cases stepped
  | otherProcess chatId holds =>
      simp only [agentStep] at stepped
      split at stepped
      · cases stepped
      · cases stepped
        exact .beside _ _ s.now
  | tick =>
      cases stepped
      exact .beside _ s.leases _

end Openheim.Runtime
