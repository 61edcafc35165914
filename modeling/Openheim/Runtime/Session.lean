import Mathlib.Data.List.AList
import Openheim.Config.Types
import Openheim.Core.Error

/-
This file follows `src/core/runtime/session.rs`: the map of live sessions and its eviction. A lock
and a cancellation token are shared objects, and a session names its own by a number.
-/

namespace Openheim.Runtime

/-- Which tools a session offers to the model. -/
inductive AgentMode where
  | code
  | architect
  deriving DecidableEq, Repr

/-- A client is built from one configuration. -/
structure LlmClient where
  config : AgentConfig
  deriving DecidableEq, Repr

structure SessionState where
  chatId : Uuid
  config : AgentConfig
  llm : Option LlmClient
  cancel : Nat
  mode : AgentMode
  promptLock : Nat
  lastActive : Instant
  deriving DecidableEq, Repr

/-- The live sessions by the id under which each was opened. The order of the entries is the order
in which the map happens to be visited. -/
abbrev Sessions := AList fun _ : String => SessionState

/-- A session may sit unused for a week before it can be evicted. -/
def sessionIdleEvictionAfter : Instant := 60 * 60 * 24 * 7 * 1000000000

def maxLiveSessions : Nat := 512

/-- The sessions lose the given ids. -/
def removeSessions (sessions : Sessions) (ids : List String) : Sessions :=
  ids.foldl (fun sessions id => sessions.erase id) sessions

section Locks
variable (locked : Nat → Bool)

/-- A turn holds the prompt lock of the session. -/
def promptInFlight (s : SessionState) : Bool := locked s.promptLock

/-- The ids of the sessions that nobody used for too long. -/
def idleIds (sessions : Sessions) (now idleAfter : Instant) : List String :=
  (sessions.entries.filter fun entry =>
    decide (idleAfter < now - entry.2.lastActive) && !promptInFlight locked entry.2).map Sigma.fst

/-- The first pass of `evict_idle_sessions`. -/
def evictIdle (sessions : Sessions) (now idleAfter : Instant) : Sessions :=
  removeSessions sessions (idleIds locked sessions now idleAfter)

/-- The ids without a turn in flight, the least recently active first. -/
def candidates (sessions : Sessions) : List String :=
  ((sessions.entries.filter fun entry => !promptInFlight locked entry.2).mergeSort
    fun a b => decide (a.2.lastActive ≤ b.2.lastActive)).map Sigma.fst

/-- The second pass of `evict_idle_sessions`. -/
def evictExcess (sessions : Sessions) (maxSessions : Nat) : Sessions :=
  if maxSessions < sessions.entries.length then
    removeSessions sessions
      ((candidates locked sessions).take (sessions.entries.length - maxSessions))
  else sessions

end Locks

/-- Removing sessions leaves the others. -/
theorem lookup_removeSessions (sessions : Sessions) (ids : List String) (id : String) :
    (removeSessions sessions ids).lookup id = if id ∈ ids then none else sessions.lookup id := by
  induction ids generalizing sessions with
  | nil => simp [removeSessions]
  | cons first ids ih =>
      rw [removeSessions, List.foldl_cons, ← removeSessions, ih]
      by_cases same : id = first
      · subst same
        simp [AList.lookup_erase]
      · simp [same, AList.lookup_erase_ne same]

/-- A session that survives has the state it had before. -/
theorem lookup_of_removeSessions {sessions : Sessions} {ids : List String} {id : String}
    {state : SessionState}
    (found : (removeSessions sessions ids).lookup id = some state) :
    sessions.lookup id = some state := by
  rw [lookup_removeSessions] at found
  split at found
  · simp at found
  · exact found

theorem lookup_eq_of_entry {sessions : Sessions} {id : String} {state : SessionState}
    (member : (⟨id, state⟩ : Sigma fun _ : String => SessionState) ∈ sessions.entries) :
    sessions.lookup id = some state := AList.mem_lookup_iff.mpr member

variable {locked : Nat → Bool} {sessions : Sessions} {id : String} {state : SessionState}

/-- Eviction removes a session only if no turn holds its prompt lock. -/
theorem lookup_evict {ids : List String} (present : sessions.lookup id = some state)
    (inFlight : locked state.promptLock)
    (waiting : ∀ other ∈ ids, ∃ idle, sessions.lookup other = some idle ∧
      locked idle.promptLock = false) :
    (removeSessions sessions ids).lookup id = some state := by
  rw [lookup_removeSessions, if_neg, present]
  intro member
  obtain ⟨idle, found, free⟩ := waiting id member
  rw [present, Option.some.injEq] at found
  rw [← found, inFlight] at free
  exact absurd free (by decide)

/-- No idle session has a turn in flight. -/
theorem idleIds_waiting (sessions : Sessions) (now idleAfter : Instant) :
    ∀ other ∈ idleIds locked sessions now idleAfter,
      ∃ idle, sessions.lookup other = some idle ∧ locked idle.promptLock = false := by
  intro other member
  simp only [idleIds, List.mem_map, List.mem_filter, Bool.and_eq_true, Bool.not_eq_true'] at member
  obtain ⟨entry, ⟨inside, _, free⟩, rfl⟩ := member
  exact ⟨entry.2, lookup_eq_of_entry inside, free⟩

/-- No candidate has a turn in flight. -/
theorem candidates_waiting (sessions : Sessions) :
    ∀ other ∈ candidates locked sessions,
      ∃ idle, sessions.lookup other = some idle ∧ locked idle.promptLock = false := by
  intro other member
  simp only [candidates, List.mem_map, List.mem_mergeSort, List.mem_filter,
    Bool.not_eq_true'] at member
  obtain ⟨entry, ⟨inside, free⟩, rfl⟩ := member
  exact ⟨entry.2, lookup_eq_of_entry inside, free⟩

/-- The idle sweep keeps every session with a turn in flight. -/
theorem lookup_evictIdle (present : sessions.lookup id = some state)
    (inFlight : locked state.promptLock)
    (now idleAfter : Instant) : (evictIdle locked sessions now idleAfter).lookup id = some state :=
  lookup_evict present inFlight (idleIds_waiting sessions now idleAfter)

/-- The sweep for the size of the map keeps every session with a turn in flight. -/
theorem lookup_evictExcess (present : sessions.lookup id = some state)
    (inFlight : locked state.promptLock)
    (maxSessions : Nat) : (evictExcess locked sessions maxSessions).lookup id = some state := by
  unfold evictExcess
  split
  · exact lookup_evict present inFlight fun other member =>
      candidates_waiting sessions other (List.mem_of_mem_take member)
  · exact present

/-- What stays after the sweep for idle sessions was there before. -/
theorem lookup_of_evictIdle {now idleAfter : Instant}
    (found : (evictIdle locked sessions now idleAfter).lookup id = some state) :
    sessions.lookup id = some state := lookup_of_removeSessions found

/-- What stays after the sweep for excess sessions was there before. -/
theorem lookup_of_evictExcess {maxSessions : Nat}
    (found : (evictExcess locked sessions maxSessions).lookup id = some state) :
    sessions.lookup id = some state := by
  unfold evictExcess at found
  split at found
  · exact lookup_of_removeSessions found
  · exact found

end Openheim.Runtime
