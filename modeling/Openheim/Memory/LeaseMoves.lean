import Openheim.Memory.Lease

/-
What a step of the lease does to the calls of `acquire`, said once for every step.
-/

namespace Openheim.Memory

/-- How one step moves the call that takes it, when it does not begin. -/
inductive CallMoves (host : String) (caller : Caller) : LeaseCall → LeaseCall → Prop where
  | read (version : Nat) (lease : Option LeaseInfo) :
      CallMoves host caller .reading (afterRead host caller version lease)
  | create (inode : Nat) : CallMoves host caller .creating (.writing inode)
  | exist : CallMoves host caller .creating .rereading
  | write (inode : Nat) : CallMoves host caller (.writing inode) .holding
  | age (version : Nat) : CallMoves host caller .rereading (.aging version)
  | takeAged (version : Nat) : CallMoves host caller (.aging version) (.overwriting version)
  | takeStale (existing : LeaseInfo) (version : Nat) :
      CallMoves host caller (.testing existing version) (.overwriting version)
  | overwrite (version : Nat) : CallMoves host caller (.overwriting version) .holding
  | fail (reason : Error) {call : LeaseCall} (inside : call.isPast = false) :
      CallMoves host caller call (.failed reason)
  | drop : CallMoves host caller .holding .dropping
  | release (version : Nat) : CallMoves host caller .dropping (.removing version)
  | keep : CallMoves host caller .dropping .idle
  | remove (version : Nat) : CallMoves host caller (.removing version) .idle

theorem LeaseCall.not_isPast_of_canFail {call : LeaseCall} (busy : canFail call) :
    call.isPast = false := by
  cases call with
  | idle | failed _ | dropping | removing _ => simp [canFail] at busy
  | _ => rfl

section Moves
variable {id : Uuid} {host : String} {s t : LeaseState} {caller : Caller}

theorem LeaseState.writeAll_calls (s : LeaseState) (inode : Nat) (info : LeaseInfo) :
    (s.writeAll inode info).calls = s.calls := by
  unfold writeAll
  split <;> rfl

theorem advance_moves {old : Bool} (stepped : advance id host s caller old = some t) :
    ∃ call, t.calls = Function.update s.calls caller call ∧
      CallMoves host caller (s.calls caller) call := by
  cases phase : s.calls caller with
  | idle | failed _ | holding => simp [advance, phase] at stepped
  | reading =>
      simp only [advance, phase, Option.some.injEq] at stepped
      exact ⟨_, by rw [← stepped, LeaseState.setCall_calls], .read _ _⟩
  | creating =>
      simp only [advance, phase] at stepped
      split at stepped
      · cases stepped
        exact ⟨_, rfl, .create _⟩
      · cases stepped
        exact ⟨_, rfl, .exist⟩
  | writing inode =>
      simp only [advance, phase] at stepped
      cases stepped
      exact ⟨_, by rw [LeaseState.setCall_calls, LeaseState.writeAll_calls], .write inode⟩
  | rereading =>
      simp only [advance, phase] at stepped
      split at stepped
      · cases stepped
        exact ⟨_, rfl, .fail _ rfl⟩
      · cases stepped
        exact ⟨_, rfl, .age _⟩
  | aging version =>
      simp only [advance, phase] at stepped
      split at stepped
      · cases stepped
        exact ⟨_, rfl, .takeAged version⟩
      · cases stepped
        exact ⟨_, rfl, .fail _ rfl⟩
  | testing existing version =>
      simp only [advance, phase] at stepped
      split at stepped
      · cases stepped
        exact ⟨_, rfl, .takeStale existing version⟩
      · cases stepped
        exact ⟨_, rfl, .fail _ rfl⟩
  | overwriting version =>
      simp only [advance, phase] at stepped
      cases stepped
      exact ⟨_, rfl, .overwrite version⟩
  | dropping =>
      simp only [advance, phase] at stepped
      split at stepped
      · cases stepped
        exact ⟨_, rfl, .release _⟩
      · cases stepped
        exact ⟨_, rfl, .keep⟩
  | removing version =>
      simp only [advance, phase] at stepped
      cases stepped
      exact ⟨_, rfl, .remove version⟩

/-- A step of a call leaves the other calls where they were. -/
theorem advance_calls {other : Caller} {old : Bool}
    (stepped : advance id host s caller old = some t)
    (different : other ≠ caller) : t.calls other = s.calls other := by
  obtain ⟨call, changed, _⟩ := advance_moves stepped
  rw [changed, Function.update_of_ne different]

/-- A step begins one call, moves one call, ends the calls of one process or
leaves all calls where they are. -/
theorem leaseStep_moves {action : LeaseAction} (stepped : leaseStep id host s action = some t) :
    t.calls = s.calls ∨ (∃ pid, t.calls = fun caller => if caller.pid = pid then .idle
        else s.calls caller) ∨
      (∃ caller, action = .acquire caller ∧ t.calls = Function.update s.calls caller .reading) ∨
      ∃ caller call, t.calls = Function.update s.calls caller call ∧
        CallMoves host caller (s.calls caller) call := by
  cases action with
  | spawn pid =>
      simp only [leaseStep] at stepped
      split at stepped
      · cases stepped
      · cases stepped
        exact .inl rfl
  | crash pid =>
      simp only [leaseStep] at stepped
      split at stepped
      · cases stepped
        exact .inr (.inl ⟨pid, rfl⟩)
      · cases stepped
  | acquire caller =>
      simp only [leaseStep] at stepped
      repeat' split at stepped
      all_goals
        cases stepped
        try exact .inr (.inr (.inl ⟨caller, rfl, rfl⟩))
  | drop caller =>
      simp only [leaseStep] at stepped
      split at stepped
      · next holds =>
        cases stepped
        exact .inr (.inr (.inr ⟨caller, _, rfl, by rw [holds]; exact .drop⟩))
      · cases stepped
  | advance caller old => exact .inr (.inr (.inr ⟨caller, advance_moves stepped⟩))
  | ioError caller =>
      simp only [leaseStep] at stepped
      split at stepped
      · next fails =>
        cases stepped
        exact .inr (.inr (.inr ⟨caller, _, rfl, .fail _ (LeaseCall.not_isPast_of_canFail fails)⟩))
      · cases stepped

theorem CallMoves.isPast {old new : LeaseCall} (moved : CallMoves host caller old new)
    (past : old.isPast) :
    new.isPast := by
  cases moved with
  | fail | release | keep | remove => rfl
  | _ => cases past

/-- A call that is past stays past until it acquires the lease again. -/
theorem leaseStep_isPast {action : LeaseAction} (past : (s.calls caller).isPast)
    (other : action ≠ .acquire caller)
    (stepped : leaseStep id host s action = some t) : (t.calls caller).isPast := by
  obtain same | ⟨pid, ended⟩ | ⟨busy, rfl, begun⟩ | ⟨busy, call, changed, moved⟩ :=
    leaseStep_moves stepped
  · rwa [same]
  · rw [ended]
    dsimp only
    split
    · rfl
    · exact past
  · have different : caller ≠ busy := fun same => other (by rw [same])
    rwa [begun, Function.update_of_ne different]
  · rw [changed]
    by_cases same : caller = busy
    · subst same
      rw [Function.update_self]
      exact moved.isPast past
    · rwa [Function.update_of_ne same]

end Moves

end Openheim.Memory
