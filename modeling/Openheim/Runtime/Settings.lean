import Openheim.Config.Resolve
import Openheim.Runtime.StateMoves

/-
This file follows the calls of `src/core/runtime/state.rs` that give a session its settings.
-/

namespace Openheim.Runtime

/-- What the metadata of a saved conversation says about its settings. -/
structure SavedSettings where
  provider : Option String
  model : Option String
  deriving DecidableEq, Repr

/-- The calls that choose settings. The last argument says whether what else the call needs is
there: an HTTP client and, for a new session, its skills. -/
inductive SettingsCall where
  | newSession (chatId : Uuid) (model : Option String) (ready : Bool)
  | loadSession (sessionId : String) (saved : SavedSettings) (ready : Bool)
  | switchModel (sessionId provider model : String) (ready : Bool)
  | setSessionModel (sessionId model : String) (ready : Bool)
  | step (action : Action)

/-- The settings that an action brings along. -/
def Action.settings : Action → Option AgentConfig
  | .newSession _ config | .loadSession _ config | .applySessionConfig _ config => some config
  | _ => none

/-- A load makes a saved conversation live that was not. -/
def opensSession (uuid : UuidCrate) (s : AgentState) (sessionId : String) : Bool :=
  (uuid.parseStr sessionId).any s.saved && (s.sessions.lookup sessionId).isNone

/-- The settings that an action gives to a session. -/
def Action.brought (uuid : UuidCrate) (s : AgentState) : Action → Option AgentConfig
  | .loadSession sessionId config => if opensSession uuid s sessionId then some config else none
  | action => action.settings

theorem Action.settings_of_brought {uuid : UuidCrate} {s : AgentState} {config : AgentConfig}
    (action : Action) (brings : action.brought uuid s = some config) : action.settings.isSome := by
  cases action with
  | loadSession sessionId config => rfl
  | _ => exact Option.isSome_of_eq_some brings

section Calls
variable (uuid : UuidCrate) (env : Environment) (app : AppConfig) (baseline : AgentConfig)

/-- The settings of a loaded session, and why its provider could not be restored. -/
def restoreConfig (saved : SavedSettings) : AgentConfig × Option Error :=
  match saved.provider with
  | some providerName =>
      let resolved :=
        match saved.model with
        | some model => app.resolveWithProvider env providerName model
        | none => app.resolveProviderDefault env providerName
      match resolved with
      | .ok config => (config, none)
      | .error error => (baseline, some error)
  | none =>
      match saved.model with
      | some model => ({ baseline with model }, none)
      | none => (baseline, none)

/-- A call that fails leaves the sessions as they were. -/
def withConfig (s : AgentState) (resolved : Except Error AgentConfig) (ready : Bool)
    (action : AgentConfig → Action) :
    Option AgentState :=
  match resolved with
  | .ok config => if ready then agentStep uuid baseline s (action config) else some s
  | .error _ => some s

def settingsStep (s : AgentState) : SettingsCall → Option AgentState
  | .newSession chatId model ready =>
      withConfig uuid baseline s (model.elim (.ok baseline) fun name =>
        app.resolve env (some name)) ready
        (.newSession chatId)
  | .loadSession sessionId saved ready =>
      withConfig uuid baseline s (.ok (restoreConfig env app baseline saved).1) ready
        (.loadSession sessionId)
  | .switchModel sessionId provider model ready =>
      withConfig uuid baseline s (app.resolveWithProvider env provider model) ready
        (.applySessionConfig sessionId)
  | .setSessionModel sessionId model ready =>
      withConfig uuid baseline s (app.resolve env (some model)) ready
        (.applySessionConfig sessionId)
  | .step action => if action.settings.isSome then none else agentStep uuid baseline s action

/-- A runtime whose sessions get their settings from these calls. -/
def settingsMachine : Machine AgentState SettingsCall where
  start := (agentMachine uuid baseline).start
  step := settingsStep uuid env app baseline

end Calls

/-- A session keeps its settings and its client. -/
def SessionState.SameSettings (before after : SessionState) : Prop :=
  after.config = before.config ∧ after.llm = before.llm

section Steps
variable {uuid : UuidCrate} {baseline : AgentConfig} {s t : AgentState}

/-- The settings of a session are those that it had, or those that the step brings. -/
def SettingsFrom (baseline : AgentConfig) (s : AgentState) (brought : Option AgentConfig)
    (id : String) (after : SessionState) : Prop :=
  (∃ before, s.sessions.lookup id = some before ∧ before.SameSettings after) ∨
    ∃ config, brought = some config ∧ after.config = config ∧ after.llm = sessionLlm baseline config

variable {brought : Option AgentConfig} {id sessionId : String} {session after : SessionState}

theorem SettingsFrom.kept (found : s.sessions.lookup id = some after) :
    SettingsFrom baseline s brought id after :=
  .inl ⟨after, found, rfl, rfl⟩

/-- An entry that replaces one with the same settings changes no settings. -/
theorem SettingsFrom.insert (found : s.sessions.lookup sessionId = some session)
    {changed : SessionState}
    (present : (s.sessions.insert sessionId changed).lookup id = some after)
    (same : session.SameSettings changed) :
    SettingsFrom baseline s brought id after := by
  by_cases own : id = sessionId
  · subst own
    rw [AList.lookup_insert, Option.some.injEq] at present
    exact .inl ⟨session, found, present ▸ same⟩
  · rw [AList.lookup_insert_ne own] at present
    exact .kept present

/-- An entry with the settings that the step brings. -/
theorem SettingsFrom.insertBrought {config : AgentConfig} {changed : SessionState}
    (brings : brought = some config)
    (present : (s.sessions.insert sessionId changed).lookup id = some after)
    (settings : changed.config = config ∧ changed.llm = sessionLlm baseline config) :
    SettingsFrom baseline s brought id after := by
  by_cases own : id = sessionId
  · subst own
    rw [AList.lookup_insert, Option.some.injEq] at present
    exact .inr ⟨config, brings, present ▸ settings⟩
  · rw [AList.lookup_insert_ne own] at present
    exact .kept present

theorem SettingsFrom.updateSession {change : SessionState → SessionState}
    (present : (Runtime.updateSession s sessionId change).sessions.lookup id = some after)
    (same : ∀ state : SessionState, state.SameSettings (change state)) :
    SettingsFrom baseline s brought id after := by
  unfold Runtime.updateSession at present
  split at present
  · next session found => exact .insert found present (same session)
  · exact .kept present

/-- This is every step of the runtime. -/
theorem agentStep_settings {action : Action} (stepped : agentStep uuid baseline s action = some t)
    (present : t.sessions.lookup id = some after) :
    SettingsFrom baseline s (action.brought uuid s) id after := by
  cases agentStep_moves stepped with
  | create chatId config opening apart => exact .insertBrought rfl present ⟨rfl, rfl⟩
  | load sessionId config chatId opening parsed saved unknown =>
      have opens : opensSession uuid s sessionId := by
        unfold opensSession
        rw [parsed, unknown]
        simpa using saved
      exact .insertBrought (if_pos opens) present ⟨rfl, rfl⟩
  | reload sessionId config opening found => exact .insert found present ⟨rfl, rfl⟩
  | evictIdle opening => exact .kept (lookup_of_evictIdle present)
  | evictExcess opening => exact .kept (lookup_of_evictExcess present)
  | startTurn number sessionId chatId unused parsed found idle =>
    exact .insert found present ⟨rfl, rfl⟩
  | cancel sessionId found => exact .updateSession present fun _ => ⟨rfl, rfl⟩
  | setMode sessionId mode => exact .updateSession present fun _ => ⟨rfl, rfl⟩
  | applyConfig sessionId config =>
      unfold Runtime.updateSession at present
      split at present
      · exact .insertBrought rfl present ⟨rfl, rfl⟩
      · exact .kept present
  | rehash entries same => exact .kept ((AList.perm_lookup same).symm.trans present)
  | fail | opened | setStage | endTurn | beside => exact .kept present

/-- A load of a saved conversation that is not live makes a session with the given settings. -/
theorem agentStep_opens (uuid : UuidCrate) (baseline config : AgentConfig) {chatId : Uuid}
    (free : s.opening = none)
    (opens : uuid.parseStr sessionId = some chatId ∧ s.saved chatId)
    (unknown : s.sessions.lookup sessionId = none) :
    ∃ t session, agentStep uuid baseline s (.loadSession sessionId config) = some t ∧
      t.sessions.lookup sessionId = some session ∧ session.config = config := by
  refine ⟨{ s.insertOrKeepLive sessionId chatId config (sessionLlm baseline config) with
    opening :=
      some ⟨sessionId, true, .idleSweep⟩ },
        s.freshSession chatId config (sessionLlm baseline config), ?_, ?_,
    rfl⟩
  · simp only [agentStep]
    rw [free, opens.1]
    simp only [opens.2]
    rfl
  · simp only [AgentState.insertOrKeepLive, unknown]
    exact AList.lookup_insert _

end Steps

end Openheim.Runtime
