import Openheim.Memory.LeaseMoves

/-
When the lockfile goes missing while a call holds the lease or acquires it, another process can hold
the lease beside that call.
-/

namespace Openheim.Memory

section Testing
variable {id : Uuid} {host : String} {s t : LeaseState} {caller : Caller}

/-- No call tests whether the process that makes it is alive. -/
def LeaseState.TestsOthers (host : String) (s : LeaseState) : Prop :=
  ∀ caller existing version, s.calls caller = .testing existing version →
    ¬ (existing.pid = caller.pid ∧ existing.hostname = host)

/-- Whom the calls test depends on nothing but the calls. -/
theorem LeaseState.TestsOthers.of_calls (before : s.TestsOthers host) (same : t.calls = s.calls) :
    t.TestsOthers host := by
  intro caller
  rw [same]
  exact before caller

/-- A call tests a lease only when it has read that another process holds it. -/
theorem CallMoves.testsOther {old : LeaseCall} {existing : LeaseInfo} {version : Nat}
    (moved : CallMoves host caller old (.testing existing version)) :
    ¬ (existing.pid = caller.pid ∧ existing.hostname = host) := by
  generalize tests : LeaseCall.testing existing version = new at moved
  cases moved with
  | read version lease =>
      unfold afterRead at tests
      repeat' split at tests
      · cases tests
      · cases tests
      · next foreign =>
        cases tests
        exact foreign
  | _ => cases tests

/-- No step makes a call test its own process. -/
theorem LeaseState.TestsOthers.step {action : LeaseAction} (before : s.TestsOthers host)
    (stepped : leaseStep id host s action = some t) : t.TestsOthers host := by
  intro caller existing version tests
  obtain same | ⟨pid, ended⟩ | ⟨busy, _, begun⟩ | ⟨busy, call, changed, moved⟩ :=
    leaseStep_moves stepped
  · rw [same] at tests
    exact before caller existing version tests
  · rw [ended] at tests
    dsimp only at tests
    split at tests
    · cases tests
    · exact before caller existing version tests
  · rw [begun] at tests
    by_cases same : caller = busy
    · subst same
      rw [Function.update_self] at tests
      cases tests
    · rw [Function.update_of_ne same] at tests
      exact before caller existing version tests
  · rw [changed] at tests
    by_cases same : caller = busy
    · subst same
      rw [Function.update_self] at tests
      subst tests
      exact moved.testsOther
    · rw [Function.update_of_ne same] at tests
      exact before caller existing version tests

end Testing

section Takeover
variable {id : Uuid} {host : String} {s t : LeaseState} {kept caller : Caller}

/-- The call neither begins nor ends, and its process lives on. -/
def Spares (kept : Caller) (_ : LeaseState) : LeaseAction → Prop
  | .acquire caller | .drop caller => caller ≠ kept
  | .crash pid => pid ≠ kept.pid
  | _ => True

/-- The call can come to hold the lease by steps of its own. -/
def LeaseState.Climbs (id : Uuid) (host : String) (kept caller : Caller) (s : LeaseState) : Prop :=
  ∃ t, (leaseMachine id host).Runs (Spares kept) s t ∧ t.calls caller = .holding ∧
    ∀ other, other ≠ caller → t.calls other = s.calls other

/-- A call that can get the lease after a step could before it. -/
theorem LeaseState.Climbs.head {old : Bool} (later : t.Climbs id host kept caller)
    (stepped : advance id host s caller old = some t) : s.Climbs id host kept caller := by
  obtain ⟨u, run, holds, others⟩ := later
  refine ⟨u, run.head ⟨.advance caller old, trivial, stepped⟩, holds, fun other different => ?_⟩
  rw [others other different, advance_calls stepped different]

/-- A call that holds the lease has got it. -/
theorem LeaseState.Climbs.last {old : Bool} (stepped : advance id host s caller old = some t)
    (holds : t.calls caller = .holding) : s.Climbs id host kept caller :=
  .head ⟨t, .refl, holds, fun _ _ => rfl⟩ stepped

/-- A call that writes the new lockfile can get the lease. -/
theorem climbs_of_writing {inode : Nat} (phase : s.calls caller = .writing inode) :
    s.Climbs id host kept caller := by
  have stepped : advance id host s caller false =
      some ((s.writeAll inode ⟨caller.pid, host⟩).setCall caller .holding) := by
    simp only [advance, phase]
  exact .last stepped (Function.update_self ..)

/-- A call that overwrites the lockfile can get the lease. -/
theorem climbs_of_overwriting {version : Nat} (phase : s.calls caller = .overwriting version) :
    s.Climbs id host kept caller := by
  have stepped : advance id host s caller false =
      some ((s.writeAtomic ⟨caller.pid, host⟩).setCall caller .holding) := by
    simp only [advance, phase]
  exact .last stepped (Function.update_self ..)

/-- A call that has found an unreadable lockfile can get the lease once that is old. -/
theorem climbs_of_aging {version : Nat} (phase : s.calls caller = .aging version) :
    s.Climbs id host kept caller := by
  have stepped : advance id host s caller true =
      some (s.setCall caller (.overwriting version)) := by
    simp [advance, phase, LeaseState.olderThan]
  exact (climbs_of_overwriting (Function.update_self ..)).head stepped

/-- A call that reads again can get a lease without a lockfile. -/
theorem climbs_of_rereading (unread : s.lease = none) (phase : s.calls caller = .rereading) :
    s.Climbs id host kept caller := by
  have stepped : advance id host s caller false = some (s.setCall caller (.aging s.version)) := by
    simp only [advance, phase, unread]
  exact (climbs_of_aging (Function.update_self ..)).head stepped

/-- A call that creates the lockfile can get a lease without one. -/
theorem climbs_of_creating (unread : s.lease = none) (phase : s.calls caller = .creating) :
    s.Climbs id host kept caller := by
  cases found : s.lockfile with
  | none =>
      have stepped : advance id host s caller false =
          some ((s.setLockfile (some ⟨s.version + 1, none⟩)).setCall caller
              (.writing (s.version + 1))) := by
        simp only [advance, phase, found]
      exact (climbs_of_writing (Function.update_self ..)).head stepped
  | some file =>
      have stepped : advance id host s caller false = some (s.setCall caller .rereading) := by
        simp only [advance, phase, found]
      have next : (s.setCall caller .rereading).Climbs id host kept caller :=
        climbs_of_rereading unread (Function.update_self ..)
      exact next.head stepped

/-- A call that begins can get a lease without a lockfile. -/
theorem climbs_of_reading (unread : s.lease = none) (phase : s.calls caller = .reading) :
    s.Climbs id host kept caller := by
  have stepped : advance id host s caller false = some (s.setCall caller .creating) := by
    simp only [advance, phase, unread, afterRead]
  have next : (s.setCall caller .creating).Climbs id host kept caller :=
    climbs_of_creating unread (Function.update_self ..)
  exact next.head stepped

/-- A call that is on its way comes to hold the lease when the lockfile cannot be read. -/
theorem climbs_of_unread (unread : s.lease = none) (inside : (s.calls caller).isPast = false)
    (decided : ∀ existing version, s.calls caller ≠ .testing existing version) :
    s.Climbs id host kept caller := by
  cases phase : s.calls caller with
  | idle | failed _ | dropping | removing _ =>
      rw [phase] at inside
      cases inside
  | reading => exact climbs_of_reading unread phase
  | creating => exact climbs_of_creating unread phase
  | writing inode => exact climbs_of_writing phase
  | rereading => exact climbs_of_rereading unread phase
  | aging version => exact climbs_of_aging phase
  | testing existing version => exact absurd phase (decided existing version)
  | overwriting version => exact climbs_of_overwriting phase
  | holding => exact ⟨s, .refl, phase, fun _ _ => rfl⟩

/-- The process that a call tests can end, or its lease can be old. -/
theorem leaves_testing (id : Uuid) (others : s.TestsOthers host)
    (inside : (s.calls caller).isPast = false) :
    ∃ t, (leaseMachine id host).Runs (Spares caller) s t ∧ t.lockfile = s.lockfile ∧
      (t.calls caller).isPast = false ∧ ∀ existing version,
        t.calls caller ≠ .testing existing version := by
  by_cases decided : ∀ existing version, s.calls caller ≠ .testing existing version
  · exact ⟨s, .refl, rfl, inside, decided⟩
  simp only [not_forall, not_not] at decided
  obtain ⟨existing, version, tests⟩ := decided
  have foreign := others caller existing version tests
  -- the test of a stale lease leads to its takeover
  have takes : ∀ u : LeaseState, u.calls caller = .testing existing version →
      isStale host u existing true → ∃ t, leaseStep id host u (.advance caller true) = some t ∧
        t.lockfile = u.lockfile ∧ (t.calls caller).isPast = false ∧ ∀ existing version,
            t.calls caller ≠ .testing existing version := by
    intro u testing stale
    have stepped : leaseStep id host u (.advance caller true) =
        some (u.setCall caller (.overwriting version)) := by
      simp only [leaseStep, advance, testing, stale, ↓reduceIte]
    refine ⟨_, stepped, rfl, ?_, ?_⟩
    all_goals rw [LeaseState.setCall_calls, Function.update_self]
    · rfl
    · intro existing version tests
      cases tests
  by_cases stale : isStale host s existing true
  · obtain ⟨t, stepped, rest⟩ := takes s tests stale
    exact ⟨t, .single ⟨.advance caller true, trivial, stepped⟩, rest⟩
  · have here : existing.hostname = host ∧ s.alive existing.pid = true := by
      simpa [isStale, LeaseState.olderThan] using stale
    have apart : existing.pid ≠ caller.pid := fun same => foreign ⟨same, here.1⟩
    have crashed : ∃ u : LeaseState, leaseStep id host s (.crash existing.pid) = some u ∧
        u.lockfile = s.lockfile ∧ u.calls caller = .testing existing version ∧
            isStale host u existing true := by
      simp only [leaseStep, here.2, ↓reduceIte]
      refine ⟨_, rfl, rfl, ?_, ?_⟩
      · show (if caller.pid = existing.pid then _ else _) = _
        rw [if_neg apart.symm]
        exact tests
      · simp [isStale, here.1]
    obtain ⟨u, crash, same, testing, dead⟩ := crashed
    obtain ⟨t, stepped, kept, rest⟩ := takes u testing dead
    have last : (leaseMachine id host).Runs (Spares caller) u t :=
      .single ⟨.advance caller true, trivial, stepped⟩
    exact ⟨t, last.head ⟨.crash existing.pid, apart, crash⟩, kept.trans same, rest⟩

/-- A process can begin afresh while another one lives on. -/
theorem begins_afresh (id : Uuid) (host : String) (s : LeaseState) {pid : Nat}
    (apart : pid ≠ kept.pid) :
    ∃ t, (leaseMachine id host).Runs (Spares kept) s t ∧ t.lockfile = s.lockfile ∧
      t.calls kept = s.calls kept ∧
      t.alive pid ∧ ∀ task, t.calls ⟨pid, task⟩ = .idle := by
  have restarts : ∀ u : LeaseState, u.alive pid → ∃ t,
      (leaseMachine id host).Runs (Spares kept) u t ∧ t.lockfile = u.lockfile ∧
          t.calls kept = u.calls kept ∧ t.alive pid ∧ ∀ task, t.calls ⟨pid, task⟩ = .idle := by
    intro u alive
    obtain ⟨t, executed, rest⟩ : ∃ t, (leaseMachine id host).exec u [.crash pid,
        .spawn pid] = some t ∧ t.lockfile = u.lockfile ∧ t.calls kept = u.calls kept ∧ t.alive pid ∧
          ∀ task, t.calls ⟨pid, task⟩ = .idle := by
      simp [Machine.exec, leaseMachine, leaseStep, alive, apart.symm]
    refine ⟨t, Machine.exec_runs (Machine.permits_of_forall ?_ u) executed, rest⟩
    simp [Spares, apart]
  by_cases alive : s.alive pid
  · exact restarts s alive
  · obtain ⟨u, stepped, file, same, awake⟩ : ∃ u, leaseStep id host s (.spawn pid) = some u ∧
        u.lockfile = s.lockfile ∧ u.calls = s.calls ∧ u.alive pid := by
      simp [leaseStep, alive]
    obtain ⟨t, run, kept', calls, rest⟩ := restarts u awake
    exact ⟨t, run.head ⟨.spawn pid, trivial, stepped⟩, kept'.trans file,
      calls.trans (by rw [same]), rest⟩

/-- Another process creates the missing lockfile and has not written its contents yet. -/
theorem rival_creates (id : Uuid) (host : String) {pid : Nat} (apart : pid ≠ kept.pid)
    (absent : s.lockfile = none) :
    ∃ t inode, (leaseMachine id host).Runs (Spares kept) s t ∧ t.lease = none ∧
      t.calls kept = s.calls kept ∧
      t.calls ⟨pid, 0⟩ = .writing inode := by
  obtain ⟨u, run, file, same, awake, idle⟩ := begins_afresh id host s apart
  have missing : u.lockfile = none := file.trans absent
  have different : kept ≠ ⟨pid, 0⟩ := by
    rintro rfl
    exact apart rfl
  obtain ⟨t, executed, unread, calls, writes⟩ : ∃ t, (leaseMachine id host).exec u
      [.acquire ⟨pid, 0⟩, .advance ⟨pid, 0⟩ false, .advance ⟨pid, 0⟩ false] = some t ∧
        t.lease = none ∧ t.calls kept = u.calls kept ∧ ∃ inode,
            t.calls ⟨pid, 0⟩ = .writing inode := by
    simp [Machine.exec, leaseMachine, leaseStep, idle, awake, advance, LeaseState.lease, missing,
      afterRead, different, LeaseState.setCall, LeaseState.setLockfile]
  obtain ⟨inode, writes⟩ := writes
  refine ⟨t, inode, run.trans (Machine.exec_runs (Machine.permits_of_forall ?_ u) executed), unread,
    calls.trans same, writes⟩
  simp [Spares, different.symm]

/-- Without the lockfile, a call that holds the lease or is on its way to it can come to hold it
together with a call of another process. -/
theorem two_holders (id : Uuid) (others : s.TestsOthers host) (absent : s.lockfile = none)
    (inside : (s.calls caller).isPast = false) :
    ∃ t pid, pid ≠ caller.pid ∧ (leaseMachine id host).Runs (Spares caller) s t ∧
      t.calls caller = .holding ∧
      t.Holds pid := by
  have apart : caller.pid + 1 ≠ caller.pid := by omega
  have different : (⟨caller.pid + 1, 0⟩ : Caller) ≠ caller := fun same =>
    apart (congrArg Caller.pid same)
  obtain ⟨first, toFirst, file, still, decided⟩ := leaves_testing id others inside
  obtain ⟨second, inode, toSecond, unread, same, writes⟩ :=
    rival_creates id host apart (file.trans absent)
  obtain ⟨third, toThird, holds, frame⟩ : second.Climbs id host caller caller :=
    climbs_of_unread unread (by rw [same]; exact still) (by rw [same]; exact decided)
  obtain ⟨last, toLast, rival, kept⟩ : third.Climbs id host caller ⟨caller.pid + 1, 0⟩ :=
    climbs_of_writing ((frame _ different).trans writes)
  refine ⟨last, caller.pid + 1, apart, ((toFirst.trans toSecond).trans toThird).trans toLast,
    ?_, 0, rival⟩
  exact (kept caller different.symm).trans holds

end Takeover

end Openheim.Memory
