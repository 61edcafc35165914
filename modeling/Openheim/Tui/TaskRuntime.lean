import Openheim.Runtime.OpenedSessions
import Openheim.Tui.TaskMoves

/-
This file says what the calls of the agent task do to the sessions of the runtime, which nobody else
uses.
-/

namespace Openheim.Tui
open Openheim.Runtime

/-- The session is on this provider and this model, if it is live. -/
def OnModel (s : AgentState) (id : String) (names : String × String) : Prop :=
  ∀ live, s.sessions.lookup id = some live → (live.config.providerName, live.config.model) = names

/-- Every session calls its model through the client that its settings need. -/
def OwnClients (baseline : AgentConfig) (s : AgentState) : Prop :=
  ∀ id live, s.sessions.lookup id = some live → live.llm = sessionLlm baseline live.config

/-- No call is under way, and only the turn of the task holds a prompt lock. -/
structure Settled (uuid : UuidCrate) (baseline : AgentConfig) (s : AgentState) : Prop where
  control : TurnInvariant uuid s
  clients : OwnClients baseline s
  free : s.opening = none
  locked : ∀ lock, s.locked lock → ∃ turn, s.turns 0 = some turn ∧ turn.promptLock = lock

/-- The action is a step of a call that puts a session into the map. -/
def opensSessions : Action → Bool
  | .newSession _ _ | .loadSession _ _ | .continueOpening => true
  | _ => false

/-- The session that an action makes or gives settings to. -/
def target (uuid : UuidCrate) : Action → Option String
  | .newSession chatId _ => some (uuid.toText chatId)
  | .loadSession sessionId _ | .applySessionConfig sessionId _ => some sessionId
  | _ => none

section Steps
variable {uuid : UuidCrate} {baseline : AgentConfig} {s t : AgentState} {action : Action}
  {id : String}
  {names : String × String}

/-- The sessions but the target of an action keep their model. -/
theorem OnModel.step (known : OnModel s id names)
    (stepped : agentStep uuid baseline s action = some t)
    (apart : target uuid action ≠ some id) : OnModel t id names := by
  have kept : ∀ {after : SessionState}, t.sessions.lookup id = some after →
      ∃ before, s.sessions.lookup id = some before ∧ before.config = after.config := by
    intro after present
    have update {sessionId : String} {change : SessionState → SessionState} {middle : AgentState}
        (same : middle.sessions = (updateSession s sessionId change).sessions)
        (present : middle.sessions.lookup id = some after)
        (plain : sessionId = id → ∀ state : SessionState, (change state).config = state.config) :
        ∃ before, s.sessions.lookup id = some before ∧ before.config = after.config := by
      rw [same, updateSession] at present
      split at present
      · next session found =>
        by_cases own : id = sessionId
        · subst own
          rw [AgentState.insertSession, AList.lookup_insert, Option.some.injEq] at present
          exact ⟨session, found, by rw [← present]; exact (plain rfl session).symm⟩
        · rw [AgentState.insertSession, AList.lookup_insert_ne own] at present
          exact ⟨after, present, rfl⟩
      · exact ⟨after, present, rfl⟩
    have insert {sessionId : String} {state : SessionState} (different : id ≠ sessionId)
        (present : (s.sessions.insert sessionId state).lookup id = some after) :
        ∃ before, s.sessions.lookup id = some before ∧ before.config = after.config := by
      rw [AList.lookup_insert_ne different] at present
      exact ⟨after, present, rfl⟩
    cases agentStep_moves stepped with
    | create chatId config opening _ => exact insert (fun same => apart (same ▸ rfl)) present
    | load sessionId config chatId opening => exact insert (fun same => apart (same ▸ rfl)) present
    | reload sessionId config opening found => exact insert (fun same => apart (same ▸ rfl)) present
    | evictIdle opening => exact ⟨after, lookup_of_evictIdle present, rfl⟩
    | evictExcess opening => exact ⟨after, lookup_of_evictExcess present, rfl⟩
    | @startTurn number sessionId chatId session unused parsed found idle =>
        by_cases own : id = sessionId
        · subst own
          rw [startTurn, AList.lookup_insert, Option.some.injEq] at present
          exact ⟨session, found, by rw [← present]⟩
        · exact insert own present
    | cancel sessionId found => exact update rfl present fun _ _ => rfl
    | setMode sessionId mode => exact update rfl present fun _ _ => rfl
    | applyConfig sessionId config =>
      exact update rfl present fun same => absurd (congrArg some same) apart
    | rehash entries same => exact ⟨after, (AList.perm_lookup same).symm.trans present, rfl⟩
    | fail | opened | setStage | endTurn | beside => exact ⟨after, present, rfl⟩
  intro after present
  obtain ⟨before, found, same⟩ := kept present
  rw [← same]
  exact known before found

/-- Every step leaves each session the client that its settings need. -/
theorem OwnClients.step (known : OwnClients baseline s)
    (stepped : agentStep uuid baseline s action = some t) :
    OwnClients baseline t := by
  intro id after present
  rcases agentStep_settings stepped present with
    ⟨before, found, config, llm⟩ | ⟨config, _, same, llm⟩
  · rw [llm, config]
    exact known id before found
  · rw [llm, same]

/-- A turn that starts takes the settings of its session. -/
def Turn.StartsOn (baseline : AgentConfig) (s : AgentState) (turn : Turn) : Prop :=
  ∃ session, s.sessions.lookup turn.sessionId = some session ∧ turn.config = session.config ∧
    turn.llm = session.llm.getD ⟨baseline⟩

/-- The settings of a turn and of its client name this provider and this model. -/
def RunsOn (turn : Turn) (names : String × String) : Prop :=
  (turn.config.providerName, turn.config.model) = names ∧
    (turn.llm.config.providerName, turn.llm.config.model) = names

/-- A session on the default model calls it through the client of the runtime. -/
theorem RunsOn.start {turn : Turn} (clients : OwnClients baseline s)
    (known : OnModel s turn.sessionId names)
    (starts : Turn.StartsOn baseline s turn) : RunsOn turn names := by
  obtain ⟨session, found, config, llm⟩ := starts
  have named := known session found
  refine ⟨by rw [config]; exact named, ?_⟩
  rw [llm, clients _ session found, sessionLlm]
  split
  · next same =>
    rw [sameModel, Bool.and_eq_true, decide_eq_true_eq, decide_eq_true_eq] at same
    rw [← named, Option.getD_none, same.1, same.2]
  · exact named

/-- A turn after a step was there before, or the step started it. -/
theorem agentStep_turn (stepped : agentStep uuid baseline s action = some t) {number : Nat}
    {turn : Turn} (running : t.turns number = some turn) :
    (∃ before, s.turns number = some before ∧ before.Continues turn) ∨
      s.turns number = none ∧ action = .prompt number turn.sessionId ∧
        Turn.StartsOn baseline s turn := by
  cases agentStep_moves stepped with
  | startTurn other sessionId chatId unused parsed found idle =>
      simp only [startTurn, Function.update_apply] at running
      split at running
      · next own =>
        cases running
        exact .inr ⟨own ▸ unused, by rw [own], _, found, rfl, rfl⟩
      · exact .inl ⟨turn, running, rfl⟩
  | @setStage _ other earlier stage leases saved found =>
      simp only [AgentState.setStage, Function.update_apply] at running
      split at running
      · next own =>
        cases running
        exact .inl ⟨earlier, own ▸ found, rfl⟩
      · exact .inl ⟨turn, running, rfl⟩
  | endTurn _ other saved found =>
      simp only [AgentState.endTurn, Function.update_apply] at running
      split at running
      · cases running
      · exact .inl ⟨turn, running, rfl⟩
  | cancel sessionId found =>
      simp only [updateSession] at running
      split at running <;> exact .inl ⟨turn, running, rfl⟩
  | applyConfig sessionId config =>
      simp only [updateSession] at running
      split at running <;> exact .inl ⟨turn, running, rfl⟩
  | setMode sessionId mode =>
      simp only [updateSession] at running
      split at running <;> exact .inl ⟨turn, running, rfl⟩
  | _ => exact .inl ⟨turn, running, rfl⟩

/-- What happens beside the turns leaves them as they are, and so does a cancel. -/
theorem agentStep_turns (stepped : agentStep uuid baseline s action = some t)
    (beside : isOutside action = true ∨ ∃ sessionId, action = .cancelSession sessionId) :
    t.turns = s.turns := by
  cases action with
  | cancelSession sessionId =>
      simp only [agentStep] at stepped
      split at stepped
      · cases stepped
      · split at stepped
        · cases stepped
          simp only [updateSession]
          split <;> rfl
        · cases stepped
          rfl
  | rehash entries =>
      simp only [agentStep] at stepped
      split at stepped
      · cases stepped
        rfl
      · cases stepped
  | otherProcess chatId holds =>
      simp only [agentStep] at stepped
      split at stepped
      · cases stepped
      · cases stepped
        rfl
  | tick =>
      cases stepped
      rfl
  | _ =>
      rcases beside with beside | ⟨sessionId, same⟩
      · cases beside
      · cases same

namespace Settled

/-- A runtime that just started is settled. -/
theorem initial (started : (agentMachine uuid baseline).start s) :
    Settled uuid baseline s ∧ s.turns 0 = none := by
  have control := TurnInvariant.initial started
  obtain ⟨empty, free, idle, unlocked, _⟩ := started
  refine ⟨⟨control, fun id live found => ?_, free, fun lock held => ?_⟩, idle 0⟩
  · have member := AList.mem_lookup_iff.mp found
    rw [empty] at member
    cases member
  · rw [unlocked lock] at held
    cases held

/-- Every turn is that of the task. -/
theorem number_eq_zero (settled : Settled uuid baseline s) {number : Nat} {turn : Turn}
    (running : s.turns number = some turn) :
    number = 0 := by
  obtain ⟨first, also, same⟩ := settled.locked _ (settled.control.held number turn running)
  exact settled.control.single number 0 turn first running also same.symm

/-- Where no turn runs, no session is locked. -/
theorem unlocked (settled : Settled uuid baseline s) (idle : s.turns 0 = none) (lock : Nat) :
    s.locked lock = false := by
  rw [Bool.eq_false_iff]
  intro held
  obtain ⟨turn, running, _⟩ := settled.locked lock held
  rw [idle] at running
  cases running

/-- Locks stay those of the turn of the task when its lock and the locks stay. -/
theorem locked_same (settled : Settled uuid baseline s) (locked : t.locked = s.locked)
    (turns : t.turns = s.turns) :
    ∀ lock, t.locked lock → ∃ turn, t.turns 0 = some turn ∧ turn.promptLock = lock := by
  rw [locked, turns]
  exact settled.locked

/-- A change of a session touches neither locks nor turns. -/
theorem updateSession_beside (s : AgentState) (sessionId : String)
    (change : SessionState → SessionState) :
    (updateSession s sessionId change).locked = s.locked ∧
      (updateSession s sessionId change).turns = s.turns := by
  rw [updateSession]
  split <;> exact ⟨rfl, rfl⟩

/-- A step of a turn of the task, or of a call that puts no session into the map. -/
theorem step (settled : Settled uuid baseline s)
    (stepped : agentStep uuid baseline s action = some t)
    (calm : opensSessions action = false)
    (numbered : ∀ number sessionId, action = .prompt number sessionId → number = 0) :
    Settled uuid baseline t := by
  have control := settled.control.step stepped
  have clients := settled.clients.step stepped
  cases agentStep_moves stepped with
  | create | load | reload | evictIdle | evictExcess | opened => cases calm
  | fail => exact settled
  | @startTurn number sessionId chatId session unused parsed found idle =>
      obtain rfl := numbered number sessionId rfl
      refine ⟨control, clients, settled.free, fun lock held => ?_⟩
      refine ⟨_, Function.update_self 0 _ s.turns, ?_⟩
      simp only [startTurn, Function.update_apply] at held
      split at held
      · next own => exact own.symm
      · obtain ⟨turn, running, _⟩ := settled.locked lock held
        rw [unused] at running
        cases running
  | @setStage _ number turn stage leases saved found =>
      obtain rfl := settled.number_eq_zero found
      refine ⟨control, clients, settled.free, fun lock held =>
        ⟨_, Function.update_self 0 _ s.turns, ?_⟩⟩
      obtain ⟨same, running, own⟩ := settled.locked lock held
      rw [found, Option.some.injEq] at running
      rw [← own, ← running]
  | @endTurn _ number turn saved found =>
      obtain rfl := settled.number_eq_zero found
      refine ⟨control, clients, settled.free, fun lock held => ?_⟩
      simp only [AgentState.endTurn, Function.update_apply] at held
      split at held
      · cases held
      · next different =>
        obtain ⟨same, running, own⟩ := settled.locked lock held
        rw [found, Option.some.injEq] at running
        exact absurd (by rw [running, own]) different
  | cancel sessionId found =>
      obtain ⟨locked, turns⟩ := updateSession_beside s sessionId id
      exact ⟨control, clients, (updateSession_opening sessionId id).trans settled.free,
        settled.locked_same locked turns⟩
  | applyConfig sessionId config =>
      obtain ⟨locked, turns⟩ := updateSession_beside s sessionId fun session =>
        { session with config, llm := sessionLlm baseline config }
      exact ⟨control, clients, (updateSession_opening _ _).trans settled.free,
        settled.locked_same locked turns⟩
  | setMode sessionId mode =>
      obtain ⟨locked, turns⟩ := updateSession_beside s sessionId fun session =>
        { session with mode }
      exact ⟨control, clients, (updateSession_opening _ _).trans settled.free,
        settled.locked_same locked turns⟩
  | rehash | beside => exact ⟨control, clients, settled.free, settled.locked_same rfl rfl⟩

end Settled

end Steps

namespace Client
variable {client : Client} {s t : AgentState}

/-- What every step of an opening call keeps, the rest of the call keeps. -/
theorem finishOpening_keeps (kept : AgentState → Prop)
    (steps : ∀ s opening, kept s → s.opening = some opening → kept (continueOpening s opening))
    (holds : kept s) :
    kept (finishOpening s) := by
  have goOn (s : AgentState) (holds : kept s) : kept (s.opening.elim s (continueOpening s)) := by
    cases found : s.opening with
    | none => exact holds
    | some opening => exact steps s opening holds found
  exact goOn _ (goOn _ (goOn s holds))

/-- What follows an opening touches neither locks nor turns. -/
theorem finishOpening_beside (s : AgentState) :
    (finishOpening s).locked = s.locked ∧ (finishOpening s).turns = s.turns := by
  refine finishOpening_keeps (fun t => t.locked = s.locked ∧ t.turns = s.turns)
    (fun t opening same _ => ?_)
    ⟨rfl, rfl⟩
  unfold continueOpening
  split <;> exact same

/-- An opening in progress can go on. -/
theorem continueOpening_step (client : Client) {opening : Opening}
    (found : s.opening = some opening) :
    agentStep client.uuid client.config s .continueOpening = some (continueOpening s opening) := by
  rw [agentStep, found]
  rfl

/-- What follows an opening leaves a session on its model. -/
theorem finishOpening_onModel (client : Client) {id : String} {names : String × String}
    (known : OnModel s id names) :
    OnModel (finishOpening s) id names := by
  refine finishOpening_keeps (fun t => OnModel t id names) (fun t opening known found => ?_) known
  exact known.step (continueOpening_step client found) (by simp [target])

/-- A call that just put its session into the map comes to its end. -/
theorem finishOpening_ends {id : String} {loads : Bool}
    (begun : s.opening = some ⟨id, loads, .idleSweep⟩) :
    (finishOpening s).opening = none ∧
      (finishOpening s).opened = some (if loads then (finishOpening s).loadResult id
          else .ok (.created id)) := by
  simp only [finishOpening, begun]
  exact ⟨rfl, rfl⟩

/-- What follows an opening settles the sessions. -/
theorem finishOpening_settled {id : String} {loads : Bool} (control : TurnInvariant client.uuid s)
    (clients : OwnClients client.config s) (locked : ∀ lock, s.locked lock = false)
    (begun : s.opening = some ⟨id, loads, .idleSweep⟩) :
    Settled client.uuid client.config (finishOpening s) where
  control := by
    refine finishOpening_keeps (TurnInvariant client.uuid) (fun t opening control found =>
      ?_) control
    exact control.step (continueOpening_step client found)
  clients := by
    refine finishOpening_keeps (OwnClients client.config) (fun t opening clients found =>
      ?_) clients
    exact clients.step (continueOpening_step client found)
  free := (finishOpening_ends begun).1
  locked lock held := by
    rw [(finishOpening_beside s).1, locked lock] at held
    cases held

/-- A new session is settled, and on the model of the configuration. -/
theorem newSession_spec {chatId : Uuid} {ready : Bool} {result : Option String}
    (settled : Settled client.uuid client.config s)
    (idle : s.turns 0 = none) (called : client.newSession s chatId ready = some (t, result)) :
    Settled client.uuid client.config t ∧ t.turns 0 = none ∧ (result = none → t = s) ∧
      ∀ id, result = some id → OnModel t id (client.config.providerName, client.config.model) := by
  obtain ⟨opened, stepped, same⟩ := Option.map_eq_some_iff.mp called
  cases same
  cases ready with
  | false =>
      cases stepped
      have nothing : finishOpening s = s := by simp [finishOpening, settled.free]
      rw [nothing]
      exact ⟨settled, idle, fun _ => rfl, by rintro _ ⟨⟩⟩
  | true =>
      have stepped : agentStep client.uuid client.config s (.newSession chatId client.config) =
        some opened := stepped
      have control := settled.control.step stepped
      have clients := settled.clients.step stepped
      simp only [agentStep] at stepped
      split at stepped
      · cases stepped
      · cases stepped
        refine ⟨finishOpening_settled control clients (settled.unlocked idle) rfl, ?_,
          by rintro ⟨⟩, ?_⟩
        · exact (congrFun (finishOpening_beside _).2 0).trans idle
        · rintro _ ⟨rfl⟩
          refine finishOpening_onModel client fun live present => ?_
          rw [AgentState.insertFresh, AgentState.insertSession, AList.lookup_insert,
            Option.some.injEq] at present
          subst present
          rfl

/-- Only a saved conversation is put into the map. -/
theorem agentStep_load {uuid : UuidCrate} {baseline config : AgentConfig} {sessionId : String}
    (stepped : agentStep uuid baseline s (.loadSession sessionId config) = some t)
    (free : s.opening = none) :
    t = s ∨ t.opening = some ⟨sessionId, true, .idleSweep⟩ ∧ t.locked = s.locked ∧
      t.turns = s.turns := by
  simp only [agentStep, free] at stepped
  split at stepped
  · next busy => cases busy
  · split at stepped
    · cases stepped
      exact .inl rfl
    · split at stepped
      · cases stepped
        refine .inr ⟨rfl, ?_⟩
        rw [AgentState.insertOrKeepLive]
        split <;> exact ⟨rfl, rfl⟩
      · cases stepped
        exact .inl rfl

/-- A loaded session is settled, and on the model that is told. -/
theorem loadSession_spec {sessionId : String} {saved : SavedSettings} {ready : Bool}
    {result : Option (String × String)} (settled : Settled client.uuid client.config s)
    (idle : s.turns 0 = none)
    (called : client.loadSession s sessionId saved ready = some (t, result)) :
    Settled client.uuid client.config t ∧ t.turns 0 = none ∧
      (result = none → ∀ id names, OnModel s id names → OnModel t id names) ∧
      ∀ names, result = some names → OnModel t sessionId names := by
  have refused : (t, result) = (s, none) → Settled client.uuid client.config t ∧ t.turns 0 = none ∧
      (result = none → ∀ id names, OnModel s id names → OnModel t id names) ∧
      ∀ names, result = some names → OnModel t sessionId names := by
    rintro ⟨⟩
    exact ⟨settled, idle, fun _ _ _ known => known, by rintro _ ⟨⟩⟩
  obtain ⟨opened, stepped, same⟩ := Option.map_eq_some_iff.mp called
  cases ready with
  | false =>
      cases stepped
      rw [settled.free] at same
      exact refused same.symm
  | true =>
      have stepped : agentStep client.uuid client.config s (.loadSession sessionId
        (restoreConfig client.env client.appConfig client.config saved).1) = some opened := stepped
      rcases agentStep_load stepped settled.free with rfl | ⟨begun, locked, turns⟩
      · rw [settled.free] at same
        exact refused same.symm
      · have unlocked : ∀ lock, opened.locked lock = false := locked ▸ settled.unlocked idle
        have ended :=
          finishOpening_settled (settled.control.step stepped) (settled.clients.step stepped)
            unlocked begun
        have quiet : (finishOpening opened).turns 0 = none := by
          rw [(finishOpening_beside opened).2, turns, idle]
        have apart : ∀ id names, id ≠ sessionId → OnModel s id names →
            OnModel (finishOpening opened) id names :=
          fun id names different known => finishOpening_onModel client
            (known.step stepped fun own => different (Option.some.inj own).symm)
        -- The session is live at the end and not busy, or it was evicted at once.
        have result_eq := (finishOpening_ends begun).2
        simp only [begun, Option.isNone_some, result_eq, ite_true, AgentState.loadResult,
          Bool.false_eq_true, if_false]
          at same
        cases found : (finishOpening opened).sessions.lookup sessionId with
        | none =>
            rw [found] at same
            cases same
            refine ⟨ended, quiet, fun _ id names known => ?_, by rintro _ ⟨⟩⟩
            by_cases own : id = sessionId
            · subst own
              intro live present
              rw [found] at present
              cases present
            · exact apart id names own known
        | some live =>
            have calm : promptInFlight (finishOpening opened).locked live = false := by
              rw [promptInFlight, (finishOpening_beside opened).1, unlocked]
            simp only [found, calm, Bool.false_eq_true, if_false] at same
            cases same
            refine ⟨ended, quiet, by rintro ⟨⟩, ?_⟩
            rintro _ ⟨rfl⟩ other present
            rw [found, Option.some.injEq] at present
            rw [present]

/-- A switch leaves the sessions settled, and this one on the new model. -/
theorem switchModel_spec {sessionId provider model : String} {ready : Bool}
    {result : Option (String × String)}
    (settled : Settled client.uuid client.config s)
    (called : client.switchModel s sessionId provider model ready = some (t, result)) :
    Settled client.uuid client.config t ∧ t.turns = s.turns ∧ (result = none → t = s) ∧
      ∀ names, result = some names → names = (provider, model) ∧ OnModel t sessionId names := by
  obtain ⟨after, stepped, same⟩ := Option.map_eq_some_iff.mp called
  have refused : after = s → (t, result) = (after, none) → Settled client.uuid client.config t ∧
      t.turns = s.turns ∧ (result = none → t = s) ∧ ∀ names, result = some names →
          names = (provider, model) ∧ OnModel t sessionId names := by
    rintro rfl ⟨⟩
    exact ⟨settled, rfl, fun _ => rfl, by rintro _ ⟨⟩⟩
  simp only [settingsStep, Runtime.settingsStep, withConfig] at stepped
  cases resolved : client.appConfig.resolveWithProvider client.env provider model with
  | error error =>
      rw [resolved] at stepped same
      cases stepped
      exact refused rfl same.symm
  | ok config =>
      rw [resolved] at stepped same
      cases ready with
      | false =>
          cases stepped
          exact refused rfl (by simpa using same.symm)
      | true =>
          have stepped :
              agentStep client.uuid client.config s (.applySessionConfig sessionId config) =
              some after :=
            stepped
          have ended := settled.step stepped rfl (by rintro _ _ ⟨⟩)
          simp only [agentStep, settled.free] at stepped
          cases stepped
          cases found : s.sessions.lookup sessionId with
          | none =>
              refine refused ?_ (by simpa [found] using same.symm)
              simp only [updateSession, found]
          | some live =>
              simp only [found, Option.isSome_some, and_self, if_true] at same
              cases same
              refine ⟨ended, (Settled.updateSession_beside _ _ _).2, by rintro ⟨⟩, ?_⟩
              rintro _ ⟨rfl⟩
              obtain ⟨providerName, modelName⟩ := AppConfig.resolveWithProvider_names resolved
              refine ⟨Prod.ext providerName modelName, fun live present => ?_⟩
              simp only [updateSession, found, AgentState.insertSession, AList.lookup_insert,
                Option.some.injEq] at present
              rw [← present]

end Client

end Openheim.Tui
