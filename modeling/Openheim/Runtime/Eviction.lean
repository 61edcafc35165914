import Openheim.Library.StableSort
import Openheim.Runtime.State

/-
This file shows what the eviction in `src/core/runtime/session.rs` removes, and when a session that
was just opened survives it.
-/

namespace Openheim.Runtime

/-- One entry of the map of live sessions. -/
abbrev Entry := Sigma fun _ : String => SessionState

/-- A sweep removes only sessions without a turn in flight, the least recently used first. -/
structure Sweeps (locked : Nat → Bool) (before after : Sessions) : Prop where
  kept : ∀ id state, after.lookup id = some state → before.lookup id = some state
  spared : ∀ id state, before.lookup id = some state → promptInFlight locked state →
    after.lookup id = some state
  oldest : ∀ id state other left, before.lookup id = some state → after.lookup id = none →
    after.lookup other = some left → promptInFlight locked left = false →
      state.lastActive ≤ left.lastActive

/-- The number of other sessions that the sweep for the size of the map keeps in preference to
`state`: those with a turn in flight, and those used later, or at the same instant if the map is
visited further along. -/
def preferred (locked : Nat → Bool) (state : SessionState) (before after : List Entry) : Nat :=
  (before.countP fun entry => promptInFlight locked entry.2 ||
    decide (state.lastActive < entry.2.lastActive)) +
    after.countP fun entry => promptInFlight locked entry.2 ||
      decide (state.lastActive ≤ entry.2.lastActive)

/-- The order in which the second pass removes entries. -/
def lessRecent (a b : Entry) : Bool := decide (a.2.lastActive ≤ b.2.lastActive)

section Sessions
variable {locked : Nat → Bool} {sessions : Sessions} {id other : String} {state left : SessionState}

/-- Removing nothing is a sweep. -/
theorem Sweeps.refl (locked : Nat → Bool) (sessions : Sessions) : Sweeps locked sessions sessions :=
  ⟨fun _ _ found => found, fun _ _ found _ => found, fun _ _ _ _ present gone =>
    by rw [present] at gone; cases gone⟩

/-- A session that is gone was one to remove. -/
theorem removed_of_lookup {ids : List String} (present : sessions.lookup id = some state)
    (gone : (removeSessions sessions ids).lookup id = none) : id ∈ ids := by
  rw [lookup_removeSessions] at gone
  by_contra stays
  rw [if_neg stays, present] at gone
  cases gone

/-- A session that stays was not one to remove. -/
theorem not_removed_of_lookup {ids : List String}
    (stays : (removeSessions sessions ids).lookup id = some state) :
    id ∉ ids := by
  intro removed
  rw [lookup_removeSessions, if_pos removed] at stays
  cases stays

/-- As many sessions go as are removed. -/
theorem length_removeSessions {ids : List String} (distinct : ids.Nodup)
    (present : ∀ id ∈ ids, id ∈ sessions) :
    (removeSessions sessions ids).entries.length + ids.length = sessions.entries.length := by
  induction ids generalizing sessions with
  | nil => rfl
  | cons first ids ih =>
      obtain ⟨single, distinct⟩ := List.nodup_cons.mp distinct
      have rest : ∀ id ∈ ids, id ∈ sessions.erase first := fun id member =>
        AList.mem_erase.mpr ⟨fun same => single (same ▸ member),
          present id (List.mem_cons_of_mem _ member)⟩
      have erased : (sessions.erase first).entries.length + 1 = sessions.entries.length := by
        have keys := congrArg List.length (AList.keys_erase first sessions)
        have member : first ∈ sessions.keys := AList.mem_keys.mp (present first List.mem_cons_self)
        have positive := List.length_pos_of_mem member
        rw [List.length_erase_of_mem member] at keys
        simp only [AList.keys, List.keys, List.length_map] at keys positive
        omega
      have step := ih distinct rest
      rw [removeSessions, List.foldl_cons, ← removeSessions, List.length_cons]
      omega

/-- The sweep for idle sessions is a sweep. -/
theorem evictIdle_sweeps (locked : Nat → Bool) (sessions : Sessions) (now idleAfter : Instant) :
    Sweeps locked sessions (evictIdle locked sessions now idleAfter) := by
  refine ⟨fun id state => lookup_of_evictIdle, fun id state present inFlight =>
    lookup_evictIdle present inFlight now idleAfter,
      fun id state other left present gone stays idle => ?_⟩
  have removed := removed_of_lookup present gone
  simp only [idleIds, List.mem_map, List.mem_filter, Bool.and_eq_true, decide_eq_true_eq] at removed
  obtain ⟨entry, ⟨inside, long, _⟩, same⟩ := removed
  have found : sessions.lookup id = some entry.2 := same ▸ lookup_eq_of_entry inside
  rw [present] at found
  cases found
  have spared := not_removed_of_lookup stays
  have member := AList.mem_lookup_iff.mp (lookup_of_evictIdle stays)
  by_contra later
  refine spared (List.mem_map.mpr ⟨⟨other, left⟩, List.mem_filter.mpr ⟨member, ?_⟩, rfl⟩)
  simp only [idle, Bool.not_false, Bool.and_true, decide_eq_true_eq]
  exact Nat.lt_of_lt_of_le long (Nat.sub_le_sub_left (Nat.le_of_not_le later) now)

/-- Being less recent is transitive. -/
theorem lessRecent_trans (a b c : Entry) : lessRecent a b → lessRecent b c → lessRecent a c := by
  simpa [lessRecent] using Nat.le_trans

/-- Of two sessions one is less recent. -/
theorem lessRecent_total (a b : Entry) : (lessRecent a b || lessRecent b a) = true := by
  simpa [lessRecent] using Nat.le_total a.2.lastActive b.2.lastActive

/-- The entries without a turn in flight, the least recently active first. -/
def ranked (locked : Nat → Bool) (sessions : Sessions) : List Entry :=
  (sessions.entries.filter fun entry => !promptInFlight locked entry.2).mergeSort lessRecent

theorem candidates_eq (locked : Nat → Bool) (sessions : Sessions) :
    candidates locked sessions = (ranked locked sessions).map Sigma.fst := rfl

/-- The sessions without a turn in flight are ranked. -/
theorem mem_ranked {entry : Entry} :
    entry ∈ ranked locked sessions ↔ entry ∈ sessions.entries ∧
      promptInFlight locked entry.2 = false := by
  simp [ranked]

/-- No session is a candidate twice. -/
theorem candidates_nodup : (candidates locked sessions).Nodup := by
  have distinct : (sessions.entries.map Sigma.fst).Nodup := sessions.nodupKeys
  have same :=
    (List.mergeSort_perm (sessions.entries.filter fun entry => !promptInFlight locked entry.2)
    lessRecent).map Sigma.fst
  exact same.nodup_iff.mpr (distinct.sublist (List.filter_sublist.map _))

/-- A candidate is in the map. -/
theorem mem_of_candidate (member : id ∈ candidates locked sessions) : id ∈ sessions := by
  obtain ⟨idle, found, _⟩ := candidates_waiting sessions id member
  exact AList.lookup_isSome.mp (by rw [found]; rfl)

/-- What an oversized map loses. -/
theorem evictExcess_of_large {maxSessions : Nat} (large : maxSessions < sessions.entries.length) :
    evictExcess locked sessions maxSessions =
      removeSessions sessions
        ((candidates locked sessions).take (sessions.entries.length - maxSessions)) :=
  if_pos large

/-- The sweep for excess sessions is a sweep. -/
theorem evictExcess_sweeps (locked : Nat → Bool) (sessions : Sessions) (maxSessions : Nat) :
    Sweeps locked sessions (evictExcess locked sessions maxSessions) := by
  refine ⟨fun id state => lookup_of_evictExcess, fun id state present inFlight =>
    lookup_evictExcess present inFlight maxSessions,
      fun id state other left present gone stays idle => ?_⟩
  have kept : sessions.lookup other = some left := lookup_of_evictExcess stays
  by_cases large : maxSessions < sessions.entries.length
  · rw [evictExcess_of_large large] at gone stays
    have removed := removed_of_lookup present gone
    have spared := not_removed_of_lookup stays
    rw [candidates_eq, ← List.map_take] at removed spared
    obtain ⟨entry, taken, same⟩ := List.mem_map.mp removed
    have member := (mem_ranked.mp (List.mem_of_mem_take taken)).1
    have found : sessions.lookup id = some entry.2 := same ▸ lookup_eq_of_entry member
    rw [present] at found
    cases found
    have ranks : (⟨other, left⟩ : Entry) ∈ ranked locked sessions :=
      mem_ranked.mpr ⟨AList.mem_lookup_iff.mp kept, idle⟩
    rw [← List.take_append_drop (sessions.entries.length - maxSessions)
      (ranked locked sessions)] at ranks
    have later := (List.mem_append.mp ranks).resolve_left fun early =>
      spared (List.mem_map.mpr ⟨_, early, rfl⟩)
    have order := List.pairwise_mergeSort lessRecent_trans lessRecent_total
      (sessions.entries.filter fun entry => !promptInFlight locked entry.2)
    rw [← ranked, ← List.take_append_drop (sessions.entries.length - maxSessions)
      (ranked locked sessions)] at order
    simpa [lessRecent] using (List.pairwise_append.mp order).2.2 entry taken _ later
  · rw [evictExcess, if_neg large, present] at gone
    cases gone

/-- Afterwards the map is small enough, or nothing is left that could be removed. -/
theorem evictExcess_bounded (locked : Nat → Bool) (sessions : Sessions) (maxSessions : Nat) :
    (evictExcess locked sessions maxSessions).entries.length ≤ maxSessions ∨
      ∀ id state, (evictExcess locked sessions maxSessions).lookup id = some state →
        promptInFlight locked state := by
  by_cases large : maxSessions < sessions.entries.length
  · by_cases enough : sessions.entries.length - maxSessions ≤ (candidates locked sessions).length
    · left
      have counted := @length_removeSessions sessions
        ((candidates locked sessions).take (sessions.entries.length - maxSessions))
        (candidates_nodup.sublist (List.take_sublist _ _))
        fun id member => mem_of_candidate (List.mem_of_mem_take member)
      rw [List.length_take, Nat.min_eq_left enough] at counted
      rw [evictExcess_of_large large]
      omega
    · right
      intro id state stays
      by_contra idle
      have kept := lookup_of_evictExcess stays
      rw [evictExcess_of_large large] at stays
      refine not_removed_of_lookup stays ?_
      rw [List.take_of_length_le (by omega), candidates_eq]
      exact List.mem_map.mpr ⟨⟨id, state⟩,
        mem_ranked.mpr ⟨AList.mem_lookup_iff.mp kept, by simpa using idle⟩, rfl⟩
  · left
    rw [evictExcess, if_neg large]
    omega

/-- Of distinct ids, those at the front are taken. -/
theorem mem_take_iff {ids front back : List String} (split : ids = front ++ id :: back)
    (distinct : ids.Nodup) (count : Nat) : id ∈ ids.take count ↔ front.length < count := by
  subst split
  have early : id ∉ front := fun member =>
    (List.nodup_append.mp distinct).2.2 id member id List.mem_cons_self rfl
  rw [List.take_append, List.mem_append]
  constructor
  · rintro (inside | behind)
    · exact absurd (List.mem_of_mem_take inside) early
    · by_contra short
      rw [Nat.sub_eq_zero_of_le (Nat.le_of_not_lt short), List.take_zero] at behind
      cases behind
  · intro long
    obtain ⟨rest, sum⟩ := Nat.exists_eq_add_of_lt long
    right
    rw [sum, Nat.add_assoc, Nat.add_sub_cancel_left, List.take_succ_cons]
    exact List.mem_cons_self

/-- The entries that are removed before a session and those that are kept in
preference to it are all the others. -/
theorem count_split (entries : List Entry) (inFlight above : Entry → Bool) :
    (entries.countP fun entry => inFlight entry || above entry) +
      ((entries.filter fun entry => !inFlight entry).countP fun entry => !above entry) =
        entries.length := by
  rw [List.countP_filter, List.length_eq_countP_add_countP (p := fun entry => inFlight entry ||
    above entry)]
  congr 1
  exact List.countP_congr fun entry _ => by cases inFlight entry <;> cases above entry <;> simp

/-- A session without a turn in flight stands among the candidates behind all others
that are not preferred to it. -/
theorem candidates_split {before after : List Entry}
    (split : sessions.entries = before ++ ⟨id, state⟩ :: after)
    (idle : promptInFlight locked state = false) :
    ∃ front back, candidates locked sessions = front ++ id :: back ∧
      preferred locked state before after + front.length + 1 = sessions.entries.length := by
  have distinct : (sessions.entries.map Sigma.fst).Nodup := sessions.nodupKeys
  have inner : (sessions.entries.filter fun entry => !promptInFlight locked entry.2) =
      (before.filter fun entry => !promptInFlight locked entry.2) ++
        ⟨id, state⟩ :: after.filter fun entry => !promptInFlight locked entry.2 := by
    rw [split, List.filter_append, List.filter_cons_of_pos (by simpa using idle)]
  have once :=
    (distinct.of_map _).sublist
      (List.filter_sublist (p := fun entry => !promptInFlight locked entry.2))
  rw [inner] at once
  obtain ⟨smaller, larger, sorted, position⟩ :=
    StableSort.mergeSort_position lessRecent_trans lessRecent_total once
  rw [← inner, ← ranked] at sorted
  refine ⟨smaller.map Sigma.fst, larger.map Sigma.fst, ?_, ?_⟩
  · rw [candidates_eq, sorted, List.map_append, List.map_cons]
  · have early := count_split before (fun entry => promptInFlight locked entry.2)
      fun entry => decide (state.lastActive < entry.2.lastActive)
    have late := count_split after (fun entry => promptInFlight locked entry.2)
      fun entry => decide (state.lastActive ≤ entry.2.lastActive)
    have flipped : (fun entry : Entry => !decide (state.lastActive < entry.2.lastActive)) =
        fun entry => lessRecent entry ⟨id, state⟩ := by
      funext entry
      rw [lessRecent, ← decide_not]
      exact decide_eq_decide.mpr Nat.not_lt
    rw [flipped] at early
    change _ + (List.filter _ after).countP (fun entry => !lessRecent ⟨id, state⟩ entry) = _ at late
    rw [List.length_map, position, preferred, split, List.length_append,
      List.length_cons, ← early, ← late]
    omega

/-- A session without a turn in flight survives just when few enough others are preferred to it. -/
theorem lookup_evictExcess_iff {before after : List Entry} {maxSessions : Nat}
    (split : sessions.entries = before ++ ⟨id, state⟩ :: after)
    (idle : promptInFlight locked state = false) :
    (evictExcess locked sessions maxSessions).lookup id = some state ↔
      preferred locked state before after < maxSessions := by
  have present : sessions.lookup id = some state := lookup_eq_of_entry (by rw [split]; simp)
  obtain ⟨front, back, names, total⟩ := candidates_split split idle
  have removed := mem_take_iff names candidates_nodup (sessions.entries.length - maxSessions)
  by_cases large : maxSessions < sessions.entries.length
  · rw [evictExcess_of_large large, lookup_removeSessions]
    by_cases first : id ∈ (candidates locked sessions).take (sessions.entries.length - maxSessions)
    · rw [if_pos first]
      have short := removed.mp first
      simp only [reduceCtorEq, false_iff]
      omega
    · rw [if_neg first, present]
      have long := mt removed.mpr first
      simp only [true_iff]
      omega
  · rw [evictExcess, if_neg large, present]
    simp only [true_iff]
    omega

end Sessions

end Openheim.Runtime
