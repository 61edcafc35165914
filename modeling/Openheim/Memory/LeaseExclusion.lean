import Openheim.Memory.LeaseMoves

/-
This file shows when the write lease of a conversation has at most one live holder.
-/

namespace Openheim.Memory

namespace LeaseState

/-- A careful step overwrites or removes the lockfile only as its call last read it. Then no
creator is still writing the file that is overwritten, and the process holds no second lease
on the file that is removed. -/
def Careful (s : LeaseState) : LeaseAction → Prop
  | .advance caller _ =>
      match s.calls caller with
      | .overwriting version => version = s.version ∧
          ∀ other inode, s.calls other = .writing inode → s.lockfile.map LockFile.inode ≠ some inode
      | .removing version => version = s.version ∧ ¬ s.Holds caller.pid
      | _ => True
  | _ => True

/-- What the next step of a call relies on. A fact that was read holds as long
as the version is the same. -/
def Fits (s : LeaseState) (host : String) (caller : Caller) : LeaseCall → Prop
  | .writing inode => s.lockfile = some ⟨inode, none⟩
  | .aging version => version ≤ s.version ∧ (version = s.version → s.lease = none)
  | .testing existing version => version ≤ s.version ∧
      (version = s.version → s.lease = some existing)
  | .overwriting version =>
      version ≤ s.version ∧ (version = s.version → ∀ pid, s.Holds pid → pid = caller.pid)
  | .holding => s.lease = some ⟨caller.pid, host⟩
  | .removing version =>
      version ≤ s.version ∧ (version = s.version → s.lease = some ⟨caller.pid, host⟩)
  | _ => True

/-- A step that leaves the lockfile alone and adds no holder keeps what other calls rely on. -/
theorem Fits.frame {s t : LeaseState} {host : String} {caller : Caller} {call : LeaseCall}
    (fits : s.Fits host caller call) (file : t.lockfile = s.lockfile)
    (version : t.version = s.version)
    (fewer : ∀ pid, t.Holds pid → s.Holds pid) : t.Fits host caller call := by
  have lease : t.lease = s.lease := by rw [LeaseState.lease, LeaseState.lease, file]
  cases call with
  | overwriting seen =>
      refine ⟨by rw [version]; exact fits.1, fun current pid holds => ?_⟩
      exact fits.2 (by rw [current, version]) pid (fewer pid holds)
  | idle | failed _ | reading | creating | rereading | dropping => trivial
  | _ => simpa only [Fits, file, version, lease] using fits

/-- A new version of the lockfile makes every earlier read out of date. -/
theorem Fits.later {s t : LeaseState} {host : String} {caller : Caller} {call : LeaseCall}
    (fits : s.Fits host caller call) (later : s.version < t.version) (idle : call ≠ .holding)
    (waits : ∀ inode, call ≠ .writing inode) : t.Fits host caller call := by
  have outdated : ∀ seen, seen ≤ s.version → seen ≤ t.version ∧ seen ≠ t.version := by omega
  cases call with
  | holding => exact absurd rfl idle
  | writing inode => exact absurd rfl (waits inode)
  | aging seen =>
    exact ⟨(outdated seen fits.1).1, fun current => absurd current (outdated seen fits.1).2⟩
  | testing existing seen =>
      exact ⟨(outdated seen fits.1).1, fun current => absurd current (outdated seen fits.1).2⟩
  | overwriting seen =>
      exact ⟨(outdated seen fits.1).1, fun current => absurd current (outdated seen fits.1).2⟩
  | removing seen =>
    exact ⟨(outdated seen fits.1).1, fun current => absurd current (outdated seen fits.1).2⟩
  | _ => trivial

end LeaseState

open LeaseState

/-- The lockfile names every holder, and what each call read is still true
unless the lockfile changed. -/
structure LeaseInvariant (host : String) (s : LeaseState) : Prop where
  fits : ∀ caller, s.Fits host caller (s.calls caller)
  live : ∀ caller, s.calls caller ≠ .idle → s.alive caller.pid
  oneWriter : ∀ first second inode inode', s.calls first = .writing inode →
    s.calls second = .writing inode' → first = second

section Invariant
variable {host : String} {s : LeaseState}

theorem LeaseInvariant.lease_of_call (inv : LeaseInvariant host s) {caller : Caller}
    (holds : s.calls caller = .holding) : s.lease = some ⟨caller.pid, host⟩ := by
  have fits := inv.fits caller
  rwa [holds] at fits

theorem LeaseInvariant.lease_of_holds (inv : LeaseInvariant host s) {pid : Nat}
    (holds : s.Holds pid) :
    s.lease = some ⟨pid, host⟩ := by
  obtain ⟨task, call⟩ := holds
  exact inv.lease_of_call call

/-- The lockfile names one process only. -/
theorem LeaseInvariant.atMostOne (inv : LeaseInvariant host s) {first second : Nat}
    (holds : s.Holds first) (also : s.Holds second) : first = second := by
  have same := (inv.lease_of_holds holds).symm.trans (inv.lease_of_holds also)
  simpa using same

theorem LeaseInvariant.live_of_holds (inv : LeaseInvariant host s) {pid : Nat}
    (holds : s.Holds pid) :
    s.alive pid := by
  obtain ⟨task, call⟩ := holds
  exact inv.live ⟨pid, task⟩ (by simp [call])

/-- While a file is being written nobody holds the lease. -/
theorem LeaseInvariant.noHolder (inv : LeaseInvariant host s) (unread : s.lease = none)
    (pid : Nat) :
    ¬ s.Holds pid := by
  intro holds
  simp [inv.lease_of_holds holds] at unread

theorem LeaseInvariant.noWriter (inv : LeaseInvariant host s)
    (read : s.lockfile = none ∨ s.lease.isSome) (caller : Caller) (inode : Nat) :
    s.calls caller ≠ .writing inode := by
  intro writes
  have fits := inv.fits caller
  rw [writes] at fits
  have file : s.lockfile = some ⟨inode, none⟩ := fits
  simp [LeaseState.lease, file] at read

theorem LeaseState.Holds.of_setCall {caller : Caller} {call : LeaseCall} (waits : call ≠ .holding)
    {pid : Nat} (holds : (s.setCall caller call).Holds pid) : s.Holds pid := by
  obtain ⟨task, held⟩ := holds
  refine ⟨task, ?_⟩
  rw [setCall_calls, Function.update_apply] at held
  split at held
  · exact absurd held waits
  · exact held

/-- A step that only changes its own call keeps the invariant if it neither
holds nor writes afterwards. -/
theorem LeaseInvariant.setCall (inv : LeaseInvariant host s) {caller : Caller} {call : LeaseCall}
    (alive : s.alive caller.pid) (waits : call ≠ .holding) (reads : ∀ inode, call ≠ .writing inode)
    (fits : s.Fits host caller call) : LeaseInvariant host (s.setCall caller call) where
  fits other := by
    have before : s.Fits host other (Function.update s.calls caller call other) := by
      by_cases own : other = caller
      · rw [own, Function.update_self]
        exact fits
      · rw [Function.update_of_ne own]
        exact inv.fits other
    exact before.frame rfl rfl fun pid => LeaseState.Holds.of_setCall waits
  live other busy := by
    by_cases own : other = caller
    · rw [own]
      exact alive
    · rw [setCall_calls, Function.update_of_ne own] at busy
      exact inv.live other busy
  oneWriter first second inode inode' one two := by
    have writer : ∀ other inode, (s.setCall caller call).calls other = .writing inode →
        s.calls other = .writing inode := by
      intro other inode writes
      rw [setCall_calls, Function.update_apply] at writes
      split at writes
      · exact absurd writes (reads inode)
      · exact writes
    exact inv.oneWriter first second inode inode' (writer _ _ one) (writer _ _ two)

/-- A step that changes the lockfile keeps the invariant if no other call writes it and it names
every other holder. -/
theorem LeaseInvariant.setLockfile (inv : LeaseInvariant host s) {caller : Caller}
    {call : LeaseCall} {file : Option LockFile} (alive : s.alive caller.pid)
    (writers : ∀ other inode, other ≠ caller → s.calls other ≠ .writing inode)
    (holders : ∀ other, other ≠ caller → s.calls other = .holding →
      file.bind LockFile.contents = some ⟨other.pid, host⟩)
    (fits : ((s.setLockfile file).setCall caller call).Fits host caller call) :
    LeaseInvariant host ((s.setLockfile file).setCall caller call) where
  fits other := by
    by_cases own : other = caller
    · rw [own, setCall_calls, Function.update_self]
      exact fits
    · rw [setCall_calls, Function.update_of_ne own, setLockfile_calls]
      by_cases holds : s.calls other = .holding
      · rw [holds]
        exact holders other own holds
      · exact (inv.fits other).later (by simp) holds fun inode => writers other inode own
  live other busy := by
    by_cases own : other = caller
    · rw [own]
      exact alive
    · rw [setCall_calls, Function.update_of_ne own] at busy
      exact inv.live other busy
  oneWriter first second inode inode' one two := by
    have writer : ∀ other inode, ((s.setLockfile file).setCall caller call).calls
        other = .writing inode → other = caller := by
      intro other inode writes
      by_contra own
      rw [setCall_calls, Function.update_of_ne own] at writes
      exact writers other inode own writes
    rw [writer _ _ one, writer _ _ two]

/-- Every step of a call keeps the invariant if it is careful. -/
theorem LeaseInvariant.advance (inv : LeaseInvariant host s) {id : Uuid} {caller : Caller}
    {old : Bool} {t : LeaseState} (careful : s.Careful (.advance caller old))
    (stepped : Memory.advance id host s caller old = some t) : LeaseInvariant host t := by
  have fits := inv.fits caller
  cases phase : s.calls caller with
  | idle => simp [Memory.advance, phase] at stepped
  | failed reason => simp [Memory.advance, phase] at stepped
  | holding => simp [Memory.advance, phase] at stepped
  | reading =>
      have alive := inv.live caller (by simp [phase])
      simp only [Memory.advance, phase, Option.some.injEq] at stepped
      subst stepped
      cases read : s.lease with
      | none => exact inv.setCall alive (by simp [afterRead]) (by simp [afterRead]) trivial
      | some existing =>
          rw [afterRead]
          split
          · rename_i own
            refine inv.setCall alive (by simp) (by simp) ⟨Nat.le_refl _, fun _ pid holds => ?_⟩
            have named := inv.lease_of_holds holds
            rw [read, Option.some.injEq] at named
            rw [← own.1, named]
          · exact inv.setCall alive (by simp) (by simp) ⟨Nat.le_refl _, fun _ => read⟩
  | creating =>
      have alive := inv.live caller (by simp [phase])
      simp only [Memory.advance, phase] at stepped
      cases file : s.lockfile with
      | none =>
          simp only [file, Option.some.injEq] at stepped
          subst stepped
          have unread : s.lease = none := by simp [LeaseState.lease, file]
          exact inv.setLockfile alive (fun other inode _ => inv.noWriter (.inl file) other inode)
            (fun other _ holds => absurd ⟨other.task, holds⟩ (inv.noHolder unread other.pid)) rfl
      | some found =>
          simp only [file, Option.some.injEq] at stepped
          subst stepped
          exact inv.setCall alive (by simp) (by simp) trivial
  | writing inode =>
      have alive := inv.live caller (by simp [phase])
      rw [phase] at fits
      have file : s.lockfile = some ⟨inode, none⟩ := fits
      simp only [Memory.advance, phase, writeAll, file, Option.map_some, ↓reduceIte,
        Option.some.injEq] at stepped
      subst stepped
      have unread : s.lease = none := by simp [LeaseState.lease, file]
      refine inv.setLockfile alive (fun other inode' different writes => ?_)
        (fun other _ holds => absurd ⟨other.task, holds⟩ (inv.noHolder unread other.pid)) rfl
      exact different (inv.oneWriter other caller inode' inode writes phase)
  | rereading =>
      have alive := inv.live caller (by simp [phase])
      simp only [Memory.advance, phase] at stepped
      cases read : s.lease with
      | none =>
          simp only [read, Option.some.injEq] at stepped
          subst stepped
          exact inv.setCall alive (by simp) (by simp) ⟨Nat.le_refl _, fun _ => read⟩
      | some holder =>
          simp only [read, Option.some.injEq] at stepped
          subst stepped
          exact inv.setCall alive (by simp [sessionLocked]) (by simp [sessionLocked]) trivial
  | aging version =>
      have alive := inv.live caller (by simp [phase])
      rw [phase] at fits
      simp only [Memory.advance, phase] at stepped
      split at stepped
      · cases stepped
        refine inv.setCall alive (by simp) (by simp) ⟨fits.1, fun current pid holds => ?_⟩
        exact absurd holds (inv.noHolder (fits.2 current) pid)
      · cases stepped
        exact inv.setCall alive (by simp [sessionLocked]) (by simp [sessionLocked]) trivial
  | testing existing version =>
      have alive := inv.live caller (by simp [phase])
      rw [phase] at fits
      simp only [Memory.advance, phase] at stepped
      split at stepped
      · rename_i stale
        cases stepped
        refine inv.setCall alive (by simp) (by simp) ⟨fits.1, fun current pid holds => ?_⟩
        -- A holder is the process that the lockfile names, and that one is dead.
        have named := (fits.2 current).symm.trans (inv.lease_of_holds holds)
        rw [Option.some.injEq] at named
        simp [isStale, named, inv.live_of_holds holds] at stale
      · cases stepped
        exact inv.setCall alive (by simp [sessionLocked]) (by simp [sessionLocked]) trivial
  | overwriting version =>
      have alive := inv.live caller (by simp [phase])
      rw [phase] at fits
      simp only [Careful, phase] at careful
      simp only [Memory.advance, phase, Option.some.injEq] at stepped
      subst stepped
      refine inv.setLockfile alive (fun other inode _ writes => ?_) (fun other _ holds => ?_) rfl
      · have writer := inv.fits other
        rw [writes] at writer
        have file : s.lockfile = some ⟨inode, none⟩ := writer
        exact careful.2 other inode writes (by rw [file]; rfl)
      · rw [fits.2 careful.1 other.pid ⟨other.task, holds⟩]
        rfl
  | dropping =>
      have alive := inv.live caller (by simp [phase])
      simp only [Memory.advance, phase] at stepped
      split at stepped
      · rename_i own
        cases stepped
        exact inv.setCall alive (by simp) (by simp) ⟨Nat.le_refl _, fun _ => own⟩
      · cases stepped
        exact inv.setCall alive (by simp) (by simp) trivial
  | removing version =>
      have alive := inv.live caller (by simp [phase])
      rw [phase] at fits
      simp only [Careful, phase] at careful
      simp only [Memory.advance, phase, Option.some.injEq] at stepped
      subst stepped
      have own := fits.2 careful.1
      refine inv.setLockfile alive (fun other inode _ =>
        inv.noWriter (.inr (by rw [own]; rfl)) other inode)
        (fun other _ holds => ?_) trivial
      have named := own.symm.trans (inv.lease_of_holds ⟨other.task, holds⟩)
      simp only [Option.some.injEq, LeaseInfo.mk.injEq, and_true] at named
      exact absurd ⟨other.task, named ▸ holds⟩ careful.2

/-- Every careful step of any process keeps the invariant. -/
theorem LeaseInvariant.step (inv : LeaseInvariant host s) {id : Uuid} {action : LeaseAction}
    {t : LeaseState}
    (careful : s.Careful action) (stepped : leaseStep id host s action = some t) :
    LeaseInvariant host t := by
  cases action with
  | spawn pid =>
      simp only [leaseStep] at stepped
      split at stepped
      · simp at stepped
      · cases stepped
        refine ⟨fun caller => (inv.fits caller).frame rfl rfl fun _ holds => holds,
          fun caller busy => ?_, inv.oneWriter⟩
        have alive := inv.live caller busy
        simp only [Function.update_apply]
        split <;> simp [alive]
  | crash pid =>
      simp only [leaseStep] at stepped
      split at stepped
      · cases stepped
        refine ⟨fun caller => ?_, fun caller busy => ?_, ?_⟩
        · by_cases crashed : caller.pid = pid
          · simp only [crashed, ↓reduceIte]
            trivial
          · simp only [crashed, ↓reduceIte]
            refine (inv.fits caller).frame rfl rfl fun other holds => ?_
            obtain ⟨task, held⟩ := holds
            dsimp only at held
            split at held
            · simp at held
            · exact ⟨task, held⟩
        · by_cases crashed : caller.pid = pid
          · simp [crashed] at busy
          · simp only [crashed, ↓reduceIte] at busy
            simp [crashed, inv.live caller busy]
        · intro first second inode inode' one two
          dsimp only at one two
          split at one
          · simp at one
          · split at two
            · simp at two
            · exact inv.oneWriter first second inode inode' one two
      · simp at stepped
  | acquire caller =>
      simp only [leaseStep] at stepped
      split at stepped
      · split at stepped
        · rename_i alive
          cases stepped
          exact inv.setCall alive (by simp) (by simp) trivial
        · simp at stepped
      · split at stepped
        · rename_i alive
          cases stepped
          exact inv.setCall alive (by simp) (by simp) trivial
        · simp at stepped
      · simp at stepped
  | drop caller =>
      simp only [leaseStep] at stepped
      split at stepped
      · rename_i holds
        cases stepped
        exact inv.setCall (inv.live caller (by simp [holds])) (by simp) (by simp) trivial
      · simp at stepped
  | advance caller old => exact inv.advance careful stepped
  | ioError caller =>
      simp only [leaseStep] at stepped
      split at stepped
      · rename_i busy
        cases stepped
        refine inv.setCall (inv.live caller fun idle => ?_) (by simp) (by simp) trivial
        simp [idle, canFail] at busy
      · simp at stepped

/-- If every step is careful, then one live process at most holds the lease, and a step that removes
the lockfile leaves no other process with it. -/
theorem lease_exclusive {id : Uuid} {host : String} {s : LeaseState}
    (reached : (leaseMachine id host).ReachableUnder Careful s) :
    (∀ first second, s.Holds first → s.Holds second → first = second) ∧
      ∀ caller old t, s.Careful (.advance caller old) →
        leaseStep id host s (.advance caller old) = some t → t.lockfile = none →
        ∀ other, other ≠ caller.pid → ¬ s.Holds other := by
  have inv : LeaseInvariant host s := by
    apply reached.invariant
    · intro first start
      refine ⟨fun caller => ?_, fun caller busy => absurd (start.2 caller) busy, ?_⟩
      · rw [start.2 caller]
        trivial
      · intro one two inode inode' writes
        simp [start.2 one] at writes
    · intro first action last before careful stepped
      exact before.step careful stepped
  refine ⟨fun first second holds also => inv.atMostOne holds also, ?_⟩
  intro caller old t careful stepped removed other different holds
  obtain ⟨task, held⟩ := holds
  have apart : (⟨other, task⟩ : Caller) ≠ caller := by
    rintro rfl
    exact different rfl
  have kept := advance_calls stepped apart
  have after := inv.step careful stepped
  exact after.noHolder (by simp [LeaseState.lease, removed]) other ⟨task, kept.trans held⟩

end Invariant

/-- A crashed process left its lockfile, and no process runs. -/
def leftover : LeaseState := ⟨some ⟨0, some ⟨9, "host"⟩⟩, 0, fun _ => false, fun _ => .idle⟩

/-- Two processes read the lease of a dead one, test it and take it over. -/
theorem takeover_race :
    ∃ s, (leaseMachine 0 "host").Reachable s ∧ s.alive 1 ∧ s.alive 2 ∧ s.Holds 1 ∧ s.Holds 2 := by
  have started : (leaseMachine 0 "host").start leftover := ⟨fun _ => rfl, fun _ => rfl⟩
  have executed : (leaseMachine 0 "host").exec leftover
    [.spawn 1, .spawn 2, .acquire ⟨1, 0⟩, .acquire ⟨2, 0⟩, .advance ⟨1, 0⟩ false,
      .advance ⟨2, 0⟩ false, .advance ⟨1, 0⟩ false, .advance ⟨2, 0⟩ false, .advance ⟨1, 0⟩ false,
        .advance ⟨2, 0⟩ false] = some _ := rfl
  exact ⟨_, Machine.reachable_of_exec started executed, rfl, rfl, ⟨0, rfl⟩, ⟨0, rfl⟩⟩

/-- One process takes over the lease of a dead one, and every step is careful. -/
theorem takeover_alone : ∃ s, s.Holds 1 ∧ s.lockfile = some ⟨1, some ⟨1, "host"⟩⟩ ∧
    (∀ first second, s.Holds first → s.Holds second → first = second) ∧
      ∀ caller old t, s.Careful (.advance caller old) →
        leaseStep 0 "host" s (.advance caller old) = some t → t.lockfile = none →
        ∀ other, other ≠ caller.pid → ¬ s.Holds other := by
  have executed : (leaseMachine 0 "host").exec leftover
    [.spawn 1, .acquire ⟨1, 0⟩, .advance ⟨1, 0⟩ false, .advance ⟨1, 0⟩ false,
      .advance ⟨1, 0⟩ false] = some _ := rfl
  have permitted : (leaseMachine 0 "host").Permits Careful leftover
      [.spawn 1, .acquire ⟨1, 0⟩, .advance ⟨1, 0⟩ false, .advance ⟨1, 0⟩ false,
          .advance ⟨1, 0⟩ false] := by
    refine Machine.permits_cons trivial rfl ?_
    refine Machine.permits_cons trivial rfl ?_
    refine Machine.permits_cons trivial rfl ?_
    refine Machine.permits_cons trivial rfl ?_
    refine ⟨⟨rfl, fun other inode writes => ?_⟩, fun _ _ => trivial⟩
    simp only [setCall_calls, Function.update_apply, leftover] at writes
    split at writes <;> simp at writes
  exact ⟨_, ⟨0, rfl⟩, rfl, lease_exclusive ⟨leftover, ⟨fun _ => rfl, fun _ => rfl⟩,
    Machine.exec_runs permitted executed⟩⟩

end Openheim.Memory
