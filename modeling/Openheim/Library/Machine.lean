import Mathlib.Logic.Relation

/-- A machine takes one labelled action at a time; an action it cannot take has no successor. -/
structure Machine (State Action : Type*) where
  start : State → Prop
  step : State → Action → Option State

namespace Machine
variable {State Action : Type*}

/-- One step takes an action that the guard permits in the current state. -/
def Step (machine : Machine State Action) (guard : State → Action → Prop) (s t : State) : Prop :=
  ∃ action, guard s action ∧ machine.step s action = some t

/-- A run follows any number of permitted steps. -/
def Runs (machine : Machine State Action) (guard : State → Action → Prop) : State → State → Prop :=
  Relation.ReflTransGen (machine.Step guard)

/-- A guarded run reaches a state from some start. -/
def ReachableUnder (machine : Machine State Action) (guard : State → Action → Prop)
    (t : State) : Prop :=
  ∃ s, machine.start s ∧ machine.Runs guard s t

/-- The free guard permits every action. -/
def free (_ : State) (_ : Action) : Prop := True

/-- A state is reachable when some unrestricted run ends in it. -/
def Reachable (machine : Machine State Action) (t : State) : Prop := machine.ReachableUnder free t

/-- This function executes a list of actions in order. -/
def exec (machine : Machine State Action) (s : State) : List Action → Option State
  | [] => some s
  | action :: rest => (machine.step s action).bind fun t => machine.exec t rest

/-- A property that each permitted step preserves holds at the end of every run. -/
theorem Runs.preserves {machine : Machine State Action} {guard : State → Action → Prop}
    {invariant : State → Prop} {s t : State} (run : machine.Runs guard s t) (before : invariant s)
    (kept : ∀ s action t, invariant s → guard s action → machine.step s action = some t →
      invariant t) :
    invariant t := by
  induction run with
  | refl => exact before
  | tail _ last ih =>
      obtain ⟨action, permitted, stepped⟩ := last
      exact kept _ action _ ih permitted stepped

/-- An invariant of the starts and of each permitted step holds in every reached state. -/
theorem ReachableUnder.invariant {machine : Machine State Action} {guard : State → Action → Prop}
    {invariant : State → Prop} {t : State} (reached : machine.ReachableUnder guard t)
    (initial : ∀ s, machine.start s → invariant s)
    (kept : ∀ s action t, invariant s → guard s action → machine.step s action = some t →
      invariant t) :
    invariant t := by
  obtain ⟨s, started, run⟩ := reached
  exact run.preserves (initial s started) kept

/-- Every action of a list is permitted in the state in which it is taken. -/
def Permits (machine : Machine State Action) (guard : State → Action → Prop) :
    State → List Action → Prop
  | _, [] => True
  | s, action :: rest => guard s action ∧ ∀ t, machine.step s action = some t →
      machine.Permits guard t rest

/-- After a permitted action, the rest of a list has to be permitted in
the state that it leads to. -/
theorem permits_cons {machine : Machine State Action} {guard : State → Action → Prop}
    {action : Action}
    {rest : List Action} {s t : State} (permitted : guard s action)
    (stepped : machine.step s action = some t)
    (tail : machine.Permits guard t rest) : machine.Permits guard s (action :: rest) := by
  refine ⟨permitted, fun other also => ?_⟩
  rw [stepped] at also
  exact Option.some.inj also ▸ tail

/-- An executed list of permitted actions is a guarded run. -/
theorem exec_runs {machine : Machine State Action} {guard : State → Action → Prop}
    {actions : List Action}
    {s t : State} (permitted : machine.Permits guard s actions)
    (executed : machine.exec s actions = some t) :
    machine.Runs guard s t := by
  induction actions generalizing s with
  | nil =>
      cases executed
      exact .refl
  | cons action rest ih =>
      obtain ⟨middle, stepped, tail⟩ := Option.bind_eq_some_iff.mp executed
      exact (ih (permitted.2 middle stepped) tail).head ⟨action, permitted.1, stepped⟩

/-- A machine that follows a function on other states takes every list of actions and
ends where the function does. -/
theorem exec_follows {Abstract : Type*} {machine : Machine State Action}
    {refines : State → Abstract → Prop} {next : Abstract → Action → Abstract}
    (follows : ∀ s abstract action, refines s abstract →
      ∃ t, machine.step s action = some t ∧ refines t (next abstract action))
    (actions : List Action) {s : State} {abstract : Abstract} (before : refines s abstract) :
    ∃ t, machine.exec s actions = some t ∧ refines t (actions.foldl next abstract) := by
  induction actions generalizing s abstract with
  | nil => exact ⟨s, rfl, before⟩
  | cons action rest ih =>
      obtain ⟨middle, stepped, kept⟩ := follows s abstract action before
      obtain ⟨t, executed, ends⟩ := ih kept
      refine ⟨t, ?_, ends⟩
      rw [exec, stepped]
      exact executed

theorem exec_append (machine : Machine State Action) (s : State) (first second : List Action) :
    machine.exec s (first ++ second) = (machine.exec s first).bind fun t =>
      machine.exec t second := by
  induction first generalizing s with
  | nil => rfl
  | cons action first ih =>
      rw [List.cons_append, exec, exec, Option.bind_assoc]
      exact Option.bind_congr fun t _ => ih t

/-- The last action of a list is taken where the others lead. -/
theorem exec_concat {machine : Machine State Action} {s t : State} {actions : List Action}
    {action : Action} (executed : machine.exec s (actions ++ [action]) = some t) :
    ∃ middle, machine.exec s actions = some middle ∧ machine.step middle action = some t := by
  rw [exec_append] at executed
  obtain ⟨middle, before, last⟩ := Option.bind_eq_some_iff.mp executed
  obtain ⟨_, stepped, same⟩ := Option.bind_eq_some_iff.mp last
  cases same
  exact ⟨middle, before, stepped⟩

/-- What is permitted is permitted part by part. -/
theorem permits_append {machine : Machine State Action} {guard : State → Action → Prop}
    {s t : State}
    {first second : List Action} (permitted : machine.Permits guard s (first ++ second))
    (executed : machine.exec s first = some t) :
    machine.Permits guard s first ∧ machine.Permits guard t second := by
  induction first generalizing s with
  | nil =>
      cases executed
      exact ⟨trivial, permitted⟩
  | cons action first ih =>
      obtain ⟨middle, stepped, tail⟩ := Option.bind_eq_some_iff.mp executed
      have rest := ih (permitted.2 middle stepped) tail
      exact ⟨permits_cons permitted.1 stepped rest.1, rest.2⟩

/-- A list of actions that the guard permits in every state is permitted. -/
theorem permits_of_forall {machine : Machine State Action} {guard : State → Action → Prop}
    {actions : List Action}
    (permitted : ∀ action ∈ actions, ∀ s, guard s action) (s : State) :
    machine.Permits guard s actions := by
  induction actions generalizing s with
  | nil => trivial
  | cons action rest ih =>
      obtain ⟨first, others⟩ := List.forall_mem_cons.mp permitted
      exact ⟨first s, fun t _ => ih others t⟩

theorem permits_free (machine : Machine State Action) (s : State) (actions : List Action) :
    machine.Permits free s actions := permits_of_forall (fun _ _ _ => trivial) s

/-- An executed list of actions reaches its final state. -/
theorem reachable_of_exec {machine : Machine State Action} {actions : List Action} {s t : State}
    (started : machine.start s) (executed : machine.exec s actions = some t) :
    machine.Reachable t :=
  ⟨s, started, exec_runs (permits_free machine s actions) executed⟩

/-- What a list of actions leads to from a reachable state is reachable. -/
theorem Reachable.exec {machine : Machine State Action} {actions : List Action} {s t : State}
    (reached : machine.Reachable s) (executed : machine.exec s actions = some t) :
    machine.Reachable t := by
  obtain ⟨start, started, run⟩ := reached
  exact ⟨start, started, run.trans (exec_runs (permits_free machine s actions) executed)⟩

theorem Reachable.step {machine : Machine State Action} {action : Action} {s t : State}
    (reached : machine.Reachable s) (stepped : machine.step s action = some t) :
    machine.Reachable t := by
  obtain ⟨start, started, run⟩ := reached
  exact ⟨start, started, run.tail ⟨action, trivial, stepped⟩⟩

/-- A run stays one without the actions that a relation takes no notice of, and it
still ends in a related state. -/
theorem exec_filter {machine : Machine State Action} {related : State → State → Prop}
    {keeps : Action → Bool}
    (kept : ∀ s t u action, related s t → keeps action = true → machine.step t action = some u →
      ∃ v, machine.step s action = some v ∧ related v u)
    (dropped : ∀ s t u action, related s t → keeps action = false → machine.step t action = some u →
      related s u)
    {s t u : State} {actions : List Action} (before : related s t)
    (executed : machine.exec t actions = some u) :
    ∃ v, machine.exec s (actions.filter keeps) = some v ∧ related v u := by
  induction actions generalizing s t with
  | nil =>
      cases executed
      exact ⟨s, rfl, before⟩
  | cons action rest ih =>
      obtain ⟨middle, stepped, later⟩ := Option.bind_eq_some_iff.mp executed
      cases side : keeps action with
      | true =>
          obtain ⟨other, also, after⟩ := kept s t middle action before side stepped
          obtain ⟨v, run, ends⟩ := ih after later
          refine ⟨v, ?_, ends⟩
          rw [List.filter_cons_of_pos side, exec, also]
          exact run
      | false =>
          obtain ⟨v, run, ends⟩ := ih (dropped s t middle action before side stepped) later
          refine ⟨v, ?_, ends⟩
          rw [List.filter_cons_of_neg (by rw [side]; exact Bool.false_ne_true)]
          exact run

end Machine
