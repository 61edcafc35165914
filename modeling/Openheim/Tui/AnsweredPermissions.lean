import Mathlib.Data.List.Nodup
import Openheim.Tui.PermissionQueue

/-
This file shows that requests for permission are answered once and in their order, and when the
highlighted option belongs to the request that is shown.
-/

namespace Openheim.Tui

/-- The number of the request that is shown, and the option that is highlighted for it. -/
def QueueState.shown (s : QueueState) : Option (Nat × Nat) :=
  s.queue.front.map fun request => (request.respondTo, s.queue.selected)

def numbers (requests : List PendingPermission) : List Nat :=
  requests.map PendingPermission.respondTo

/-- Every request has at most one answer, the requests before the one that is shown were answered or
are stale, no other request was lost, and an option is highlighted. -/
structure AnsweredInTurn (s : QueueState) : Prop where
  once : (s.received.map Prod.fst).Nodup
  inTurn : ∀ request ∈ s.queue.front, ∀ number < request.respondTo,
    number ∈ s.received.map Prod.fst ∨ number ∈ s.closed
  kept : ∀ number < s.pushed,
    number ∈ numbers s.queue.pending ∨ number ∈ s.received.map Prod.fst ∨ number ∈ s.closed
  option : s.queue.selected < permissionOptions.length

/-- Only the front request gets an answer, when it is not stale. -/
def SendsToFront (s : QueueState) (action : QueueAction) (t : QueueState) : Prop :=
  t.received = s.received ∨ ∃ decision request, action = .resolve decision ∧
    s.queue.front = some request ∧ request.respondTo ∉ s.closed ∧
      t.received = s.received ++ [(request.respondTo, decision)]

/-- The highlight of a request that stays in front changes only when it is moved, and another
request starts with the first option. -/
structure HighlightFollows (s : QueueState) (action : QueueAction) (t : QueueState) : Prop where
  same : ∀ number old new, s.shown = some (number, old) → t.shown = some (number, new) →
    new = old ∨ action = .selectPrevious ∨ action = .selectNext
  reset : ∀ number new, t.shown = some (number, new) →
    (∀ old, s.shown ≠ some (number, old)) → new = 0

/-- The front request goes stale between its two tests, while another option than the first is
highlighted for it and a later request is live. -/
def Slips (s : QueueState) (channel : Nat) : Prop :=
  ∃ front rest, s.pruning = some ⟨false, [], front :: rest⟩ ∧ s.queue.pending = front :: rest ∧
    front.respondTo = channel ∧ s.queue.selected ≠ 0 ∧ ∃ later ∈ rest, later.respondTo ∉ s.closed

def NoSlip (s : QueueState) : QueueAction → Prop
  | .expire channel => ¬ Slips s channel
  | _ => True

/-- What a step of the queue did. -/
inductive QueueStep (s : QueueState) : QueueAction → QueueState → Prop where
  | expire (channel : Nat) : QueueStep s (.expire channel) { s with closed := channel :: s.closed }
  | drop (frontIsStale : Bool) (retained rest : List PendingPermission)
      (request : PendingPermission)
      (pruning : s.pruning = some ⟨frontIsStale, retained, request :: rest⟩)
      (stale : request.respondTo ∈ s.closed) :
      QueueStep s .testNext { s with pruning := some ⟨frontIsStale, retained, rest⟩ }
  | retain (frontIsStale : Bool) (retained rest : List PendingPermission)
      (request : PendingPermission)
      (pruning : s.pruning = some ⟨frontIsStale, retained, request :: rest⟩)
      (live : request.respondTo ∉ s.closed) :
      QueueStep s .testNext { s with pruning := some ⟨frontIsStale, retained ++ [request], rest⟩ }
  | endPrune (frontIsStale : Bool) (retained : List PendingPermission)
      (pruning : s.pruning = some ⟨frontIsStale, retained, []⟩) :
      QueueStep s .endPrune { s with
        queue := ⟨retained, if frontIsStale then 0 else s.queue.selected⟩
        pruning := none }
  | beginPrune (idle : s.pruning = none) :
      QueueStep s .beginPrune { s with
        pruning := some ⟨s.queue.front.any s.isClosed, [], s.queue.pending⟩ }
  | push (idle : s.pruning = none) (toolName arguments : String) (subagent : Option String) :
      QueueStep s (.push toolName arguments subagent) { s with
        queue := s.queue.push ⟨toolName, arguments, subagent, s.pushed⟩
        pushed := s.pushed + 1 }
  | select (idle : s.pruning = none) (action : QueueAction)
      (selects : action = .selectPrevious ∨ action = .selectNext)
      (selected : Nat) (option : s.queue.selected < permissionOptions.length →
        selected < permissionOptions.length) :
      QueueStep s action { s with queue := { s.queue with selected } }
  | nothing (idle : s.pruning = none) (decision : PermissionDecision) :
      QueueStep s (.resolve decision) s
  | answer (idle : s.pruning = none) (decision : PermissionDecision) (request : PendingPermission)
      (rest : List PendingPermission) (front : s.queue.pending = request :: rest)
      (live : request.respondTo ∉ s.closed) :
      QueueStep s (.resolve decision) { s with
        queue := ⟨rest, 0⟩
        received := s.received ++ [(request.respondTo, decision)] }
  | discard (idle : s.pruning = none) (decision : PermissionDecision) (request : PendingPermission)
      (rest : List PendingPermission) (front : s.queue.pending = request :: rest)
      (stale : request.respondTo ∈ s.closed) :
      QueueStep s (.resolve decision) { s with queue := ⟨rest, 0⟩ }

section Steps
variable {s t : QueueState} {action : QueueAction}

/-- A request is closed when no one waits at its channel. -/
theorem isClosed_iff {request : PendingPermission} : s.isClosed request = true ↔
    request.respondTo ∈ s.closed :=
  decide_eq_true_iff

/-- A test drops the next request if it is closed, and keeps it otherwise. -/
theorem testNext_cases (stepped : s.step .testNext = some t) : QueueStep s .testNext t := by
  rw [QueueState.step] at stepped
  split at stepped
  · next frontIsStale retained request rest pruning =>
    cases stepped
    by_cases stale : request.respondTo ∈ s.closed
    · rw [if_pos (isClosed_iff.mpr stale)]
      exact .drop frontIsStale retained rest request pruning stale
    · rw [if_neg fun found => stale (isClosed_iff.mp found)]
      exact .retain frontIsStale retained rest request pruning stale
  · cases stepped

/-- Every action between two sweeps is one of the steps of the queue. -/
theorem act_cases (idle : s.pruning = none) (stepped : s.act action = some t) :
    QueueStep s action t := by
  cases action with
  | push toolName arguments subagent =>
      cases stepped
      exact .push idle toolName arguments subagent
  | selectPrevious =>
      cases stepped
      exact .select idle _ (.inl rfl) (s.queue.selected - 1) fun before =>
        Nat.lt_of_le_of_lt (Nat.sub_le _ _) before
  | selectNext =>
      cases stepped
      refine .select idle _ (.inr rfl) (min (s.queue.selected + 1) (permissionOptions.length - 1))
        fun _ => ?_
      exact Nat.lt_of_le_of_lt (Nat.min_le_right _ _) (by decide)
  | resolve decision =>
      rw [QueueState.act, PermissionQueue.resolve] at stepped
      cases pending : s.queue.pending with
      | nil =>
          rw [pending] at stepped
          cases stepped
          exact .nothing idle decision
      | cons request rest =>
          rw [pending] at stepped
          dsimp only at stepped
          rw [QueueState.send] at stepped
          split at stepped
          · next stale =>
            cases stepped
            exact .discard idle decision request rest pending (isClosed_iff.mp stale)
          · next live =>
            cases stepped
            exact .answer idle decision request rest pending fun found =>
              live (isClosed_iff.mpr found)
  | beginPrune =>
      cases stepped
      exact .beginPrune idle
  | testNext => cases stepped
  | endPrune => cases stepped
  | expire channel => cases stepped

/-- Every step is one of these. -/
theorem step_cases (stepped : s.step action = some t) : QueueStep s action t := by
  have outside (acted : (if s.pruning.isNone then s.act action else none) = some t) :
      QueueStep s action t := by
    split at acted
    · next idle => exact act_cases (Option.isNone_iff_eq_none.mp idle) acted
    · cases acted
  cases action with
  | expire channel =>
      cases stepped
      exact .expire channel
  | testNext => exact testNext_cases stepped
  | endPrune =>
      rw [QueueState.step] at stepped
      split at stepped
      · next frontIsStale retained pruning =>
        cases stepped
        exact .endPrune frontIsStale retained pruning
      · cases stepped
  | push toolName arguments subagent => exact outside stepped
  | selectPrevious => exact outside stepped
  | selectNext => exact outside stepped
  | resolve decision => exact outside stepped
  | beginPrune => exact outside stepped

end Steps

/-- How far the tests of one `prune_stale` have come on the waiting requests: the tested ones were
retained or are stale. -/
structure Pruning.Sound (pending : List PendingPermission) (closed : List Nat)
    (pruning : Pruning) : Prop where
  tested : ∃ tested, pending = tested ++ pruning.untested ∧ List.Sublist pruning.retained tested ∧
    ∀ request ∈ tested, request ∈ pruning.retained ∨ request.respondTo ∈ closed
  front : pruning.frontIsStale = true → ∀ request ∈ pending.head?,
    request.respondTo ∈ closed ∧ request ∉ pruning.retained

/-- The requests stand in the order of their numbers, and an answered one waits no more. -/
structure Ledger (s : QueueState) : Prop where
  ordered : (numbers s.queue.pending).Pairwise (· < ·)
  known : ∀ number ∈ numbers s.queue.pending, number < s.pushed
  answered : ∀ number ∈ s.received.map Prod.fst, number < s.pushed ∧
    number ∉ numbers s.queue.pending
  once : (s.received.map Prod.fst).Nodup
  kept : ∀ number < s.pushed,
    number ∈ numbers s.queue.pending ∨ number ∈ s.received.map Prod.fst ∨ number ∈ s.closed
  option : s.queue.selected < permissionOptions.length
  pruning : ∀ pruning ∈ s.pruning, pruning.Sound s.queue.pending s.closed

section Ledgers
variable {s t : QueueState} {action : QueueAction} {request : PendingPermission}
  {retained rest pending : List PendingPermission} {frontIsStale : Bool}

/-- A channel that closes keeps every request on the ledger. -/
theorem Ledger.expire (ledger : Ledger s) (channel : Nat) :
    Ledger { s with closed := channel :: s.closed } where
  ordered := ledger.ordered
  known := ledger.known
  answered := ledger.answered
  once := ledger.once
  kept number small := (ledger.kept number small).imp_right fun found =>
    found.imp_right (List.mem_cons_of_mem channel)
  option := ledger.option
  pruning pruning found := by
    obtain ⟨⟨tested, split, part, stale⟩, front⟩ := ledger.pruning pruning found
    refine ⟨⟨tested, split, part, fun request member => ?_⟩, fun flagged request first => ?_⟩
    · exact (stale request member).imp_right (List.mem_cons_of_mem channel)
    · exact (front flagged request first).imp_left (List.mem_cons_of_mem channel)

/-- Dropping a closed request keeps the others on the ledger. -/
theorem Ledger.drop (ledger : Ledger s)
    (pruning : s.pruning = some ⟨frontIsStale, retained, request :: rest⟩)
    (stale : request.respondTo ∈ s.closed) :
    Ledger { s with pruning := some ⟨frontIsStale, retained, rest⟩ } where
  ordered := ledger.ordered
  known := ledger.known
  answered := ledger.answered
  once := ledger.once
  kept := ledger.kept
  option := ledger.option
  pruning next found := by
    cases found
    obtain ⟨⟨tested, split, part, gone⟩, front⟩ := ledger.pruning _ pruning
    refine ⟨⟨tested ++ [request], ?_, part.trans (List.sublist_append_left _ _),
      fun other member => ?_⟩, front⟩
    · rw [split, List.append_assoc, List.singleton_append]
    · rcases List.mem_append.mp member with old | new
      · exact gone other old
      · rw [List.mem_singleton.mp new]
        exact .inr stale

/-- Keeping a live request keeps all of them on the ledger. -/
theorem Ledger.retain (ledger : Ledger s)
    (pruning : s.pruning = some ⟨frontIsStale, retained, request :: rest⟩)
    (live : request.respondTo ∉ s.closed) :
    Ledger { s with pruning := some ⟨frontIsStale, retained ++ [request], rest⟩ } where
  ordered := ledger.ordered
  known := ledger.known
  answered := ledger.answered
  once := ledger.once
  kept := ledger.kept
  option := ledger.option
  pruning next found := by
    cases found
    obtain ⟨⟨tested, split, part, gone⟩, front⟩ := ledger.pruning _ pruning
    refine ⟨⟨tested ++ [request], ?_, part.append (List.Sublist.refl _), fun other member => ?_⟩,
      ?_⟩
    · rw [split, List.append_assoc, List.singleton_append]
    · rcases List.mem_append.mp member with old | new
      · exact (gone other old).imp_left (List.mem_append_left _)
      · exact .inl (List.mem_append_right _ new)
    · intro flagged other first
      obtain ⟨stale, absent⟩ := front flagged other first
      refine ⟨stale, fun member => ?_⟩
      rcases List.mem_append.mp member with old | new
      · exact absent old
      · rw [List.mem_singleton.mp new] at stale
        exact live stale

/-- Stale requests may go. -/
theorem Ledger.shrink (ledger : Ledger s) (part : List.Sublist pending s.queue.pending)
    (gone : ∀ request ∈ s.queue.pending, request ∈ pending ∨ request.respondTo ∈ s.closed)
    {selected : Nat} (option : selected < permissionOptions.length) :
    Ledger { s with queue := ⟨pending, selected⟩, pruning := none } where
  ordered := ledger.ordered.sublist (part.map _)
  known number member := ledger.known number ((part.map _).subset member)
  answered number member :=
    (ledger.answered number member).imp_right fun absent found => absent ((part.map _).subset found)
  once := ledger.once
  kept number small := by
    rcases ledger.kept number small with waiting | settled
    · obtain ⟨request, member, rfl⟩ := List.mem_map.mp waiting
      exact (gone request member).imp (List.mem_map_of_mem) .inr
    · exact .inr settled
  option := option
  pruning _ found := nomatch found

/-- A new request is put on the ledger behind the others. -/
theorem Ledger.push (ledger : Ledger s) (idle : s.pruning = none) (toolName arguments : String)
    (subagent : Option String) :
    Ledger { s with
      queue := s.queue.push ⟨toolName, arguments, subagent, s.pushed⟩
      pushed := s.pushed + 1 } := by
  have added : numbers (s.queue.push ⟨toolName, arguments, subagent, s.pushed⟩).pending =
      numbers s.queue.pending ++ [s.pushed] := List.map_append
  constructor
  · rw [added]
    refine List.pairwise_append.mpr ⟨ledger.ordered, List.pairwise_singleton _ _,
      fun number member other last => ?_⟩
    rw [List.mem_singleton.mp last]
    exact ledger.known number member
  · intro number member
    rw [added] at member
    rcases List.mem_append.mp member with old | new
    · exact Nat.lt_succ_of_lt (ledger.known number old)
    · rw [List.mem_singleton.mp new]
      exact Nat.lt_succ_self _
  · intro number member
    obtain ⟨small, absent⟩ := ledger.answered number member
    refine ⟨Nat.lt_succ_of_lt small, ?_⟩
    rw [added, List.mem_append, not_or, List.mem_singleton]
    exact ⟨absent, Nat.ne_of_lt small⟩
  · exact ledger.once
  · intro number small
    rw [added]
    rcases Nat.lt_succ_iff_lt_or_eq.mp small with old | rfl
    · exact (ledger.kept number old).imp_left (List.mem_append_left _)
    · exact .inl (List.mem_append_right _ List.mem_cons_self)
  · show (if s.queue.pending.isEmpty then 0 else s.queue.selected) < permissionOptions.length
    split
    · decide
    · exact ledger.option
  · intro pruning found
    rw [idle] at found
    cases found

/-- The first number is that of the front. -/
theorem numbers_front (front : s.queue.pending = request :: rest) :
    numbers s.queue.pending = request.respondTo :: numbers rest := by
  rw [front]
  rfl

/-- The requests behind the front have later numbers. -/
theorem Ledger.behind (ledger : Ledger s) (front : s.queue.pending = request :: rest) :
    (∀ number ∈ numbers rest, request.respondTo < number) ∧ (numbers rest).Pairwise (· < ·) := by
  have ordered := ledger.ordered
  rw [numbers_front front] at ordered
  exact List.pairwise_cons.mp ordered

/-- The front request is answered, and nobody behind it had been. -/
theorem Ledger.answer (ledger : Ledger s) (idle : s.pruning = none)
    (front : s.queue.pending = request :: rest) (decision : PermissionDecision) :
    Ledger { s with
      queue := ⟨rest, 0⟩, received := s.received ++ [(request.respondTo, decision)] } := by
  have numbered := numbers_front front
  have answers : (s.received ++ [(request.respondTo, decision)]).map Prod.fst =
      s.received.map Prod.fst ++ [request.respondTo] := List.map_append
  obtain ⟨later, ordered⟩ := ledger.behind front
  constructor
  · exact ordered
  · intro number member
    exact ledger.known number (numbered ▸ List.mem_cons_of_mem _ member)
  · intro number member
    rw [answers] at member
    rcases List.mem_append.mp member with old | new
    · obtain ⟨small, absent⟩ := ledger.answered number old
      rw [numbered, List.mem_cons, not_or] at absent
      exact ⟨small, absent.2⟩
    · rw [List.mem_singleton.mp new]
      exact ⟨ledger.known _ (numbered ▸ List.mem_cons_self),
        fun again => Nat.lt_irrefl _ (later _ again)⟩
  · rw [answers]
    refine List.nodup_append.mpr ⟨ledger.once, List.nodup_singleton _,
      fun number old other new same => ?_⟩
    rw [same, List.mem_singleton.mp new] at old
    exact (ledger.answered _ old).2 (numbered ▸ List.mem_cons_self)
  · intro number small
    rw [answers]
    rcases ledger.kept number small with waiting | answered | stale
    · rw [numbered] at waiting
      rcases List.mem_cons.mp waiting with rfl | behind
      · exact .inr (.inl (List.mem_append_right _ List.mem_cons_self))
      · exact .inl behind
    · exact .inr (.inl (List.mem_append_left _ answered))
    · exact .inr (.inr stale)
  · exact Nat.zero_lt_succ _
  · intro pruning found
    rw [idle] at found
    cases found

/-- Every step keeps the ledger. -/
theorem Ledger.step (ledger : Ledger s) (stepped : QueueStep s action t) : Ledger t := by
  cases stepped with
  | expire channel => exact ledger.expire channel
  | drop frontIsStale retained rest request pruning stale => exact ledger.drop pruning stale
  | retain frontIsStale retained rest request pruning live => exact ledger.retain pruning live
  | endPrune frontIsStale retained pruning =>
      obtain ⟨⟨tested, split, part, gone⟩, -⟩ := ledger.pruning _ pruning
      rw [List.append_nil] at split
      refine ledger.shrink (split ▸ part) (split ▸ gone) ?_
      split
      · decide
      · exact ledger.option
  | beginPrune idle =>
      refine { ledger with pruning := fun pruning found => ?_ }
      cases found
      refine ⟨⟨[], rfl, List.Sublist.refl _, fun _ absent => nomatch absent⟩,
        fun flagged request first => ?_⟩
      rw [PermissionQueue.front, Option.mem_def.mp first] at flagged
      exact ⟨isClosed_iff.mp flagged, List.not_mem_nil⟩
  | push idle toolName arguments subagent => exact ledger.push idle toolName arguments subagent
  | select idle action selects selected option =>
    exact { ledger with option := option ledger.option }
  | nothing idle decision => exact ledger
  | answer idle decision request rest front live => exact ledger.answer idle front decision
  | discard idle decision request rest front stale =>
      have part : List.Sublist rest s.queue.pending := front ▸ List.sublist_cons_self request rest
      have gone : ∀ other ∈ s.queue.pending, other ∈ rest ∨ other.respondTo ∈ s.closed := by
        rw [front]
        exact List.forall_mem_cons.mpr ⟨.inr stale, fun _ member => .inl member⟩
      have same : { s with queue := ⟨rest, 0⟩ } =
        { s with queue := ⟨rest, 0⟩, pruning := none } := by rw [idle]
      rw [same]
      exact ledger.shrink part gone (by decide)

/-- The ledger of the empty queue. -/
theorem Ledger.empty : Ledger ⟨⟨[], 0⟩, none, 0, [], []⟩ :=
  ⟨List.Pairwise.nil, by simp [numbers], by simp, List.nodup_nil, by simp, by decide, by simp⟩

/-- Throughout every run each request is on the ledger once. -/
theorem ledger_of_reachable (reached : queueMachine.Reachable s) : Ledger s := by
  apply reached.invariant
  · rintro first rfl
    exact .empty
  · intro first action last before _ stepped
    exact before.step (step_cases stepped)

/-- What the ledger says about the front. -/
theorem Ledger.answeredInTurn (ledger : Ledger s) : AnsweredInTurn s := by
  refine ⟨ledger.once, fun request first number small => ?_, ledger.kept, ledger.option⟩
  obtain ⟨rest, pending⟩ : ∃ rest, s.queue.pending = request :: rest :=
    List.head?_eq_some_iff.mp first
  have numbered := numbers_front pending
  have known := ledger.known request.respondTo (numbered ▸ List.mem_cons_self)
  rcases ledger.kept number (small.trans known) with waiting | settled
  · obtain ⟨later, -⟩ := ledger.behind pending
    rw [numbered] at waiting
    rcases List.mem_cons.mp waiting with rfl | behind
    · exact absurd small (Nat.lt_irrefl _)
    · exact absurd small (Nat.lt_asymm (later number behind))
  · exact settled

/-- Every step answers the front and no other request. -/
theorem sendsToFront (stepped : QueueStep s action t) : SendsToFront s action t := by
  cases stepped with
  | answer idle decision request rest front live =>
      refine .inr ⟨decision, request, rfl, ?_, live, rfl⟩
      rw [PermissionQueue.front, front]
      rfl
  | _ => exact .inl rfl

end Ledgers

/-- Why the highlight cannot come to belong to another request while `prune_stale` runs: the front
was found stale, was retained or still waits for its test, or the first option is highlighted or no
request will be left. -/
inductive FrontSafe (s : QueueState) (pruning : Pruning) : Prop where
  | stale (found : pruning.frontIsStale = true)
  | kept (same : pruning.retained.head? = s.queue.front)
  | live (all : pruning = ⟨false, [], s.queue.pending⟩)
      (waiting : ∀ request ∈ s.queue.front, request.respondTo ∉ s.closed)
  | first (highlight : s.queue.selected = 0)
  | alone (nobody : pruning.retained = [])
      (others : ∀ request ∈ pruning.untested, request.respondTo ∈ s.closed)

section Highlights
variable {s t : QueueState} {action : QueueAction} {request : PendingPermission}
  {retained rest : List PendingPermission} {frontIsStale : Bool}

/-- The front may go stale when nothing slips through. -/
theorem FrontSafe.expire {pruning : Pruning} {channel : Nat} (found : s.pruning = some pruning)
    (safe : FrontSafe s pruning) (permitted : ¬ Slips s channel) :
    FrontSafe { s with closed := channel :: s.closed } pruning := by
  cases safe with
  | stale flagged => exact .stale flagged
  | kept same => exact .kept same
  | first highlight => exact .first highlight
  | alone nobody others =>
      exact .alone nobody fun request member => List.mem_cons_of_mem channel (others request member)
  | live all waiting =>
      cases pending : s.queue.pending with
      | nil =>
          refine .live (by rw [all]) fun request first => ?_
          rw [PermissionQueue.front, pending] at first
          cases first
      | cons front rest =>
          by_cases gone : front.respondTo = channel
          · by_cases highlight : s.queue.selected = 0
            · exact .first highlight
            · -- nobody behind the front is live, or it would slip through
              refine .alone (by rw [all]) fun request member => ?_
              rw [all, pending] at member
              rcases List.mem_cons.mp member with rfl | behind
              · exact gone ▸ List.mem_cons_self
              · by_contra live
                have waits : request.respondTo ∉ s.closed := fun shut =>
                  live (List.mem_cons_of_mem channel shut)
                have untouched : s.pruning = some ⟨false, [], front :: rest⟩ := by
                  rw [found, all, pending]
                exact permitted ⟨front, rest, untouched, pending, gone, highlight, request,
                  behind, waits⟩
          · refine .live (by rw [all]) fun request first => ?_
            have same : request = front := by
              rw [PermissionQueue.front, pending] at first
              exact (Option.some.inj first).symm
            have live := waiting front (by rw [PermissionQueue.front, pending]; rfl)
            rw [same, List.mem_cons, not_or]
            exact ⟨gone, live⟩

/-- Dropping a closed request leaves the front safe. -/
theorem FrontSafe.drop (safe : FrontSafe s ⟨frontIsStale, retained, request :: rest⟩)
    (stale : request.respondTo ∈ s.closed) :
    FrontSafe { s with pruning := some ⟨frontIsStale, retained, rest⟩ } ⟨frontIsStale, retained,
        rest⟩ := by
  cases safe with
  | stale flagged => exact .stale flagged
  | kept same => exact .kept same
  | first highlight => exact .first highlight
  | alone nobody others =>
    exact .alone nobody fun other member => others other (List.mem_cons_of_mem request member)
  | live all waiting =>
      obtain ⟨-, -, pending⟩ := Pruning.mk.inj all
      have front : s.queue.front = some request := by rw [PermissionQueue.front, ← pending]; rfl
      exact absurd stale (waiting request front)

/-- Keeping a live request leaves the front safe. -/
theorem FrontSafe.retain (ledger : Ledger s)
    (pruning : s.pruning = some ⟨frontIsStale, retained, request :: rest⟩)
    (safe : FrontSafe s ⟨frontIsStale, retained, request :: rest⟩)
    (live : request.respondTo ∉ s.closed) :
    FrontSafe { s with pruning := some ⟨frontIsStale, retained ++ [request], rest⟩ }
      ⟨frontIsStale, retained ++ [request], rest⟩ := by
  cases safe with
  | stale flagged => exact .stale flagged
  | first highlight => exact .first highlight
  | alone nobody others => exact absurd (others request List.mem_cons_self) live
  | live all waiting =>
      obtain ⟨-, rfl, pending⟩ := Pruning.mk.inj all
      refine .kept ?_
      rw [PermissionQueue.front, ← pending]
      rfl
  | kept same =>
      obtain ⟨⟨tested, split, -, -⟩, -⟩ := ledger.pruning _ pruning
      cases retained with
      | cons first others => exact .kept same
      | nil =>
          have empty : s.queue.pending = [] := List.head?_eq_none_iff.mp same.symm
          rw [empty] at split
          exact absurd split.symm (List.append_ne_nil_of_right_ne_nil tested
            (List.cons_ne_nil request rest))

/-- A sweep that begins knows whether its front is closed. -/
theorem frontSafe_beginPrune (s : QueueState) :
    FrontSafe { s with pruning := some ⟨s.queue.front.any s.isClosed, [], s.queue.pending⟩ }
      ⟨s.queue.front.any s.isClosed, [], s.queue.pending⟩ := by
  cases flagged : s.queue.front.any s.isClosed with
  | true => exact .stale rfl
  | false =>
      refine .live rfl fun request first shut => ?_
      rw [Option.mem_def.mp first] at flagged
      exact Bool.false_ne_true (flagged.symm.trans (isClosed_iff.mpr shut))

/-- Every step that lets nothing slip through keeps the highlight safe. -/
theorem FrontSafe.step (ledger : Ledger s) (safe : ∀ pruning ∈ s.pruning, FrontSafe s pruning)
    (permitted : NoSlip s action) (stepped : QueueStep s action t) :
    ∀ pruning ∈ t.pruning, FrontSafe t pruning := by
  have idle {next : QueueState} (quiet : next.pruning = none) : ∀ pruning ∈ next.pruning,
      FrontSafe next pruning := by
    intro pruning found
    rw [quiet] at found
    cases found
  cases stepped with
  | expire channel => exact fun pruning found => (safe pruning found).expire found permitted
  | drop frontIsStale retained rest request pruning stale =>
      rintro _ ⟨⟩
      exact (safe _ pruning).drop stale
  | retain frontIsStale retained rest request pruning live =>
      rintro _ ⟨⟩
      exact FrontSafe.retain ledger pruning (safe _ pruning) live
  | beginPrune quiet =>
      rintro _ ⟨⟩
      exact frontSafe_beginPrune s
  | endPrune frontIsStale retained pruning => exact idle rfl
  | push quiet toolName arguments subagent => exact idle quiet
  | select quiet action selects selected option => exact idle quiet
  | nothing quiet decision => exact idle quiet
  | answer quiet decision request rest front live => exact idle quiet
  | discard quiet decision request rest front stale => exact idle quiet

/-- The request shown is the front, with its highlight. -/
theorem shown_iff {number highlight : Nat} : s.shown = some (number, highlight) ↔
    ∃ request, s.queue.front = some request ∧ request.respondTo = number ∧
      s.queue.selected = highlight := by
  rw [QueueState.shown, Option.map_eq_some_iff]
  simp only [Prod.mk.injEq]

/-- A step that changes neither the front nor the highlight. -/
theorem HighlightFollows.of_shown (same : t.shown = s.shown) : HighlightFollows s action t where
  same number old new before after := by
    rw [same, before] at after
    cases after
    exact .inl rfl
  reset number new after other := by
    rw [same] at after
    exact absurd after (other new)

/-- After an answer the next request starts with the first option. -/
theorem highlightFollows_resolve (ledger : Ledger s) (front : s.queue.pending = request :: rest)
    (queue : t.queue = ⟨rest, 0⟩) : HighlightFollows s action t := by
  obtain ⟨later, -⟩ := ledger.behind front
  constructor
  · intro number old new before after
    obtain ⟨shown, first, rfl, -⟩ := shown_iff.mp before
    obtain ⟨next, second, same, -⟩ := shown_iff.mp after
    rw [PermissionQueue.front, front] at first
    rw [PermissionQueue.front, queue] at second
    cases first
    have behind := later next.respondTo (List.mem_map_of_mem (List.mem_of_mem_head? second))
    rw [same] at behind
    exact absurd behind (Nat.lt_irrefl _)
  · intro number new after other
    obtain ⟨_, _, _, rfl⟩ := shown_iff.mp after
    rw [queue]

/-- A new request behind the front leaves the highlight. -/
theorem highlightFollows_push (toolName arguments : String) (subagent : Option String)
    (queue : t.queue = s.queue.push ⟨toolName, arguments, subagent, s.pushed⟩) :
    HighlightFollows s action t := by
  cases pending : s.queue.pending with
  | nil =>
      have nothing : s.shown = none := by rw [QueueState.shown, PermissionQueue.front, pending]; rfl
      constructor
      · intro number old new before
        rw [nothing] at before
        cases before
      · intro number new after _
        obtain ⟨_, _, _, rfl⟩ := shown_iff.mp after
        rw [queue, PermissionQueue.push, pending]
        rfl
  | cons request rest =>
      refine .of_shown ?_
      rw [QueueState.shown, QueueState.shown, queue, PermissionQueue.front, PermissionQueue.front,
        PermissionQueue.push, pending]
      rfl

/-- Moving the highlight is a choice of the user. -/
theorem highlightFollows_select (selects : action = .selectPrevious ∨ action = .selectNext)
    (pending : t.queue.pending = s.queue.pending) : HighlightFollows s action t where
  same _ _ _ _ _ := .inr selects
  reset number new after other := by
    obtain ⟨request, first, same, -⟩ := shown_iff.mp after
    rw [PermissionQueue.front, pending] at first
    exact absurd (shown_iff.mpr ⟨request, first, same, rfl⟩) (other _)

/-- Where nothing is pending, no highlight is shown. -/
theorem HighlightFollows.of_nothing (nothing : t.queue.pending = []) :
    HighlightFollows s action t := by
  have unlit : t.shown = none := by rw [QueueState.shown, PermissionQueue.front, nothing]; rfl
  constructor
  · intro number old new _ after
    rw [unlit] at after
    cases after
  · intro number new after
    rw [unlit] at after
    cases after

/-- When the front was found stale it is gone, and the next request starts with the first option. -/
theorem highlightFollows_stale (ledger : Ledger s) (pruning : s.pruning = some ⟨true, retained, []⟩)
    (queue : t.queue = ⟨retained, 0⟩) : HighlightFollows s action t := by
  obtain ⟨⟨tested, split, part, -⟩, stale⟩ := ledger.pruning _ pruning
  rw [List.append_nil] at split
  constructor
  · intro number old new before after
    obtain ⟨request, first, rfl, -⟩ := shown_iff.mp before
    obtain ⟨next, second, same, -⟩ := shown_iff.mp after
    rw [PermissionQueue.front, queue] at second
    have inside : next ∈ retained := List.mem_of_mem_head? second
    have waiting : next ∈ s.queue.pending := split ▸ part.subset inside
    have equal : next = request :=
      List.inj_on_of_nodup_map (ledger.ordered.imp Nat.ne_of_lt) waiting
        (List.mem_of_mem_head? first) same
    exact absurd (equal ▸ inside) (stale rfl request first).2
  · intro number new after _
    obtain ⟨_, _, _, rfl⟩ := shown_iff.mp after
    rw [queue]

/-- At the end of `prune_stale` the highlight belongs to the front request, or the
first option is highlighted. -/
theorem highlightFollows_endPrune (ledger : Ledger s)
    (pruning : s.pruning = some ⟨frontIsStale, retained, []⟩)
    (safe : FrontSafe s ⟨frontIsStale, retained, []⟩)
    (queue : t.queue = ⟨retained, if frontIsStale then 0 else s.queue.selected⟩) :
    HighlightFollows s action t := by
  cases frontIsStale with
  | true => exact highlightFollows_stale ledger pruning queue
  | false =>
      have pending : t.queue.pending = retained := by rw [queue]
      have selected : t.queue.selected = s.queue.selected := by rw [queue]; rfl
      cases safe with
      | stale flagged => cases flagged
      | live all waiting => exact .of_nothing (pending.trans (Pruning.mk.inj all).2.1)
      | alone nobody others => exact .of_nothing (pending.trans nobody)
      | kept same =>
          refine .of_shown ?_
          rw [QueueState.shown, QueueState.shown, PermissionQueue.front, pending, selected, same]
      | first highlight =>
          constructor
          · intro number old new before after
            obtain ⟨_, _, _, rfl⟩ := shown_iff.mp before
            obtain ⟨_, _, _, rfl⟩ := shown_iff.mp after
            exact .inl selected
          · intro number new after _
            obtain ⟨_, _, _, rfl⟩ := shown_iff.mp after
            rw [selected, highlight]

/-- Every step moves the highlight as it should. -/
theorem highlightFollows (ledger : Ledger s) (safe : ∀ pruning ∈ s.pruning, FrontSafe s pruning)
    (stepped : QueueStep s action t) : HighlightFollows s action t := by
  cases stepped with
  | expire channel => exact .of_shown rfl
  | drop frontIsStale retained rest request pruning stale => exact .of_shown rfl
  | retain frontIsStale retained rest request pruning live => exact .of_shown rfl
  | endPrune frontIsStale retained pruning =>
    exact highlightFollows_endPrune ledger pruning (safe _ pruning) rfl
  | beginPrune idle => exact .of_shown rfl
  | push idle toolName arguments subagent =>
    exact highlightFollows_push toolName arguments subagent rfl
  | select idle action selects selected option => exact highlightFollows_select selects rfl
  | nothing idle decision => exact .of_shown rfl
  | answer idle decision request rest front live => exact highlightFollows_resolve ledger front rfl
  | discard idle decision request rest front stale =>
    exact highlightFollows_resolve ledger front rfl

/-- In every run each request has at most one answer, which it gets as the front one, and the
requests come to the front in their order. When in addition no front request slips through
`prune_stale`, the highlight follows the request that is shown. -/
theorem permissions_answered (s : QueueState) :
    (queueMachine.Reachable s →
      AnsweredInTurn s ∧ ∀ action t, queueMachine.step s action = some t →
        SendsToFront s action t) ∧
    (queueMachine.ReachableUnder NoSlip s →
      ∀ action t, queueMachine.step s action = some t → HighlightFollows s action t) := by
  constructor
  · intro reached
    exact ⟨(ledger_of_reachable reached).answeredInTurn, fun action t stepped =>
      sendsToFront (step_cases stepped)⟩
  · intro reached
    have both : Ledger s ∧ ∀ pruning ∈ s.pruning, FrontSafe s pruning := by
      apply reached.invariant
      · rintro first rfl
        exact ⟨.empty, fun _ absent => nomatch absent⟩
      · intro first action last before permitted stepped
        have did := step_cases stepped
        exact ⟨before.1.step did, FrontSafe.step before.1 before.2 permitted did⟩
    exact fun action t stepped => highlightFollows both.1 both.2 (step_cases stepped)

/-- Two requests wait, and the second option is highlighted for the first one when it goes stale
between its tests. -/
def slippingRun : List QueueAction :=
  [.push "read_file" "" none, .push "execute_command" "" none, .selectNext, .beginPrune,
    .expire 0, .testNext, .testNext]

/-- The highlight of the first request is carried over to the second one. -/
theorem highlight_carried_over :
    ∃ s t, queueMachine.exec ⟨⟨[], 0⟩, none, 0, [], []⟩ slippingRun = some s ∧
    queueMachine.step s .endPrune = some t ∧ s.shown = some (0, 1) ∧ t.shown = some (1, 1) ∧
      t.queue.selectedDecision = some .allowAlways ∧ ¬ HighlightFollows s .endPrune t := by
  refine ⟨_, _, rfl, rfl, rfl, rfl, rfl, fun follows => ?_⟩
  have reset := follows.reset 1 1 rfl fun old same => nomatch same
  cases reset

end Highlights

end Openheim.Tui
