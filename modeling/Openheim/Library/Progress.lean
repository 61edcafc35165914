import Mathlib.Data.Prod.Lex
import Mathlib.Order.WellFounded
import Openheim.Library.Machine

/-
Runs that go on for ever, and why a machine has none of some kind.
-/

namespace Machine
variable {State Action : Type*} {machine : Machine State Action}

/-- A run that never stops. -/
structure Endless (machine : Machine State Action) (states : ℕ → State)
    (actions : ℕ → Action) : Prop where
  start : machine.start (states 0)
  steps : ∀ n, machine.step (states n) (actions n) = some (states (n + 1))

theorem Endless.reachable {states : ℕ → State} {actions : ℕ → Action}
    (endless : machine.Endless states actions) (n : ℕ) : machine.Reachable (states n) := by
  induction n with
  | zero => exact ⟨states 0, endless.start, .refl⟩
  | succ n ih => exact ih.step (endless.steps n)

/-- Where every action but the waiting ones lowers a rank that no action raises, an endless run does
nothing but wait from some point on. -/
theorem Endless.waits {Rank : Type*} [LinearOrder Rank] [WellFoundedLT Rank] (rank : State → Rank)
    (waiting : Action → Prop) {states : ℕ → State} {actions : ℕ → Action}
    (endless : machine.Endless states actions)
    (lowers : ∀ s action t, machine.Reachable s → machine.step s action = some t →
      rank t ≤ rank s ∧ (waiting action ∨ rank t < rank s)) :
    ∃ n, ∀ m, n ≤ m → waiting (actions m) := by
  have steps (n : ℕ) := lowers _ _ _ (endless.reachable n) (endless.steps n)
  obtain ⟨n, least⟩ : ∃ n, ∀ m, rank (states n) ≤ rank (states m) := by
    obtain ⟨_, ⟨n, rfl⟩, least⟩ :=
      (@wellFounded_lt Rank _ _).has_min (Set.range fun n => rank (states n)) ⟨_, ⟨0, rfl⟩⟩
    exact ⟨n, fun m => not_lt.mp (least _ ⟨m, rfl⟩)⟩
  have falls : Antitone fun n => rank (states n) := antitone_nat_of_succ_le fun n => (steps n).1
  refine ⟨n, fun m later => (steps m).2.resolve_right fun lower => ?_⟩
  exact absurd (lower.trans_le (falls later)) (least (m + 1)).not_gt

end Machine
