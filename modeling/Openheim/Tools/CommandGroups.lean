import Openheim.Tools.ExecuteCommand

/-
This file shows that the calls of `run_command` signal only their own process groups, and which
groups are listed.
-/

namespace Openheim.Tools
open CommandState

/-- What each step does, with all that it needs. -/
inductive CommandMove (s : CommandState) : CommandAction → CommandState → Prop where
  | spawn {command : Nat} {pid : Int} (idle : s.commands command = .idle) (positive : 0 < pid)
      (free : s.system pid = none) :
      CommandMove s (.spawn command pid)
        ((s.setGroup pid (some ⟨some command, false, false⟩)).setCommand command (.spawned pid))
  | register {command : Nat} {child : Int} (spawned : s.commands command = .spawned child) :
      CommandMove s (.register command)
        (setCommand { s with
          runningGroups :=
            (RunningGroup.register child).pgid.elim s.runningGroups (insert · s.runningGroups) }
          command (.running (RunningGroup.register child)))
  | wait {command : Nat} {group : RunningGroup}
      (waits : s.commands command = .running group ∨ s.commands command = .killing group) :
      CommandMove s (.wait command) ((s.reap group.child).setCommand command (.reaped group))
  | stop {command : Nat} {group : RunningGroup} (runs : s.commands command = .running group) :
      CommandMove s (.stop command)
        ((if 0 < group.child then s.killGroup group.child else s).setCommand command
          (.killing group))
  | leave {command : Nat} {group : RunningGroup}
      (waits : s.commands command = .running group ∨ s.commands command = .killing group) :
      CommandMove s (.leave command) ((group.pgid.elim s s.killGroup).setCommand command
        (.dropping group))
  | unlist {command : Nat} {group : RunningGroup} {orphan : Option Int}
      (done : s.commands command = .reaped group ∧ orphan = none ∨
        s.commands command = .dropping group ∧ orphan = some group.child) :
      CommandMove s (.unlist command)
        (setCommand { s with
          runningGroups := group.pgid.elim s.runningGroups s.runningGroups.erase } command
          (.ended orphan))
  | killRunningCommands : CommandMove s .killRunningCommands s.killRunning
  | reapOrphan {command : Nat} {child : Int} (left : s.commands command = .ended (some child)) :
      CommandMove s (.reapOrphan command) ((s.reap child).setCommand command (.ended none))
  | groupEnds {pgid : Int} {group : ProcessGroup} (stands : s.system pgid = some group)
      (empty : group.command = none ∨ group.reaped = true) :
      CommandMove s (.groupEnds pgid) (s.setGroup pgid none)
  | otherStarts {pgid : Int} (free : s.system pgid = none) :
      CommandMove s (.otherStarts pgid) (s.setGroup pgid (some ⟨none, false, false⟩))

/-- Every action of the machine is one of the moves. -/
theorem command_moves {s t : CommandState} {action : CommandAction}
    (stepped : s.step action = some t) :
    CommandMove s action t := by
  cases action with
  | spawn command pid =>
      simp only [step, Option.ite_none_right_eq_some, Option.some.injEq] at stepped
      obtain ⟨⟨idle, positive, free⟩, rfl⟩ := stepped
      exact .spawn idle positive free
  | register command =>
      simp only [step] at stepped
      split at stepped
      · next child spawned =>
        cases stepped
        exact .register spawned
      · cases stepped
  | wait command =>
      simp only [step] at stepped
      split at stepped
      · next group runs =>
        cases stepped
        exact .wait (.inl runs)
      · next group kills =>
        cases stepped
        exact .wait (.inr kills)
      · cases stepped
  | stop command =>
      simp only [step] at stepped
      split at stepped
      · next group runs =>
        cases stepped
        exact .stop runs
      · cases stepped
  | leave command =>
      simp only [step] at stepped
      split at stepped
      · next group runs =>
        cases stepped
        exact .leave (.inl runs)
      · next group kills =>
        cases stepped
        exact .leave (.inr kills)
      · cases stepped
  | unlist command =>
      simp only [step] at stepped
      split at stepped
      · next group reaped =>
        cases stepped
        exact .unlist (.inl ⟨reaped, rfl⟩)
      · next group drops =>
        cases stepped
        exact .unlist (.inr ⟨drops, rfl⟩)
      · cases stepped
  | killRunningCommands =>
      cases stepped
      exact .killRunningCommands
  | reapOrphan command =>
      simp only [step] at stepped
      split at stepped
      · next child left =>
        cases stepped
        exact .reapOrphan left
      · cases stepped
  | groupEnds pgid =>
      simp only [step] at stepped
      split at stepped
      · next group stands =>
        split at stepped
        · next empty =>
          cases stepped
          exact .groupEnds stands empty
        · cases stepped
      · cases stepped
  | otherStarts pgid =>
      simp only [step, Option.ite_none_right_eq_some, Option.some.injEq] at stepped
      obtain ⟨free, rfl⟩ := stepped
      exact .otherStarts free

namespace CommandStage

/-- The child that nobody has reaped yet. -/
def child : CommandStage → Option Int
  | .spawned child => some child
  | .running group | .killing group | .dropping group => some group.child
  | .ended orphan => orphan
  | .idle | .reaped _ => none

/-- The call has signalled its group, unless it has reaped the child. -/
def hasKilled : CommandStage → Bool
  | .killing _ | .dropping _ | .ended _ => true
  | .idle | .spawned _ | .running _ | .reaped _ => false

def group : CommandStage → Option RunningGroup
  | .running group | .killing group | .reaped group | .dropping group => some group
  | .idle | .spawned _ | .ended _ => none

/-- The group that the call keeps in the list. -/
def listed (stage : CommandStage) : Option Int := stage.group.bind RunningGroup.pgid

end CommandStage

section Frames
variable {s : CommandState} {command other : Nat} {stage : CommandStage} {pgid apart : Int}
  {group : Option ProcessGroup}

@[simp] theorem setCommand_system : (s.setCommand command stage).system = s.system := rfl

@[simp] theorem setCommand_groups :
    (s.setCommand command stage).runningGroups = s.runningGroups := rfl

@[simp] theorem setCommand_same : (s.setCommand command stage).commands command = stage :=
  Function.update_self _ _ _

/-- The other commands stay where they are. -/
theorem setCommand_other (different : other ≠ command) :
    (s.setCommand command stage).commands other = s.commands other :=
  Function.update_of_ne different _ _

@[simp] theorem setGroup_commands : (s.setGroup pgid group).commands = s.commands := rfl

@[simp] theorem setGroup_groups : (s.setGroup pgid group).runningGroups = s.runningGroups := rfl

@[simp] theorem setGroup_same : (s.setGroup pgid group).system pgid = group :=
  Function.update_self _ _ _

/-- The other groups stay as they are. -/
theorem setGroup_other (different : apart ≠ pgid) :
    (s.setGroup pgid group).system apart = s.system apart :=
  Function.update_of_ne different _ _

end Frames

/-- The unreaped group of a call stays so, and it stays killed. -/
def Keeps (s t : CommandState) (command : Nat) : Prop :=
  ∀ pid killed, s.system pid = some ⟨some command, false, killed⟩ →
    ∃ more, t.system pid = some ⟨some command, false, more⟩ ∧ (killed = true → more = true)

section Keeping
variable {s t : CommandState} {pgid child : Int} {command other : Nat}

/-- Where no process changes, every group is kept. -/
theorem keeps_same (same : t.system = s.system) : Keeps s t command :=
  fun _ killed stands => ⟨killed, same ▸ stands, id⟩

/-- A kill leaves every group and its owner in place. -/
theorem keeps_killGroup (s : CommandState) (pgid : Int) (command : Nat) :
    Keeps s (s.killGroup pgid) command := by
  intro pid killed stands
  by_cases own : pid = pgid
  · subst own
    exact ⟨true, by rw [killGroup, setGroup_same, stands]; rfl, fun _ => rfl⟩
  · exact ⟨killed, by rw [killGroup, setGroup_other own, stands], id⟩

/-- Killing what is listed leaves every group and its owner in place. -/
theorem keeps_killRunning (s : CommandState) (command : Nat) : Keeps s s.killRunning command := by
  intro pid killed stands
  by_cases member : pid ∈ s.runningGroups
  · exact ⟨true, by simp [killRunning, member, stands], fun _ => rfl⟩
  · exact ⟨killed, by simp [killRunning, member, stands], id⟩

/-- A reaped child is that of one call. -/
theorem keeps_reap {killed : Bool} (own : s.system child = some ⟨some command, false, killed⟩)
    (different : other ≠ command) : Keeps s (s.reap child) other := by
  intro pid before stands
  have apart : pid ≠ child := by
    rintro rfl
    rw [own] at stands
    cases stands
    exact different rfl
  exact ⟨before, by rw [reap, setGroup_other apart, stands], id⟩

/-- A number that no live command owns may be given to another group. -/
theorem keeps_setGroup {group : Option ProcessGroup} (command : Nat)
    (free : ∀ killed, s.system pgid ≠ some ⟨some command, false, killed⟩) :
    Keeps s (s.setGroup pgid group) command := by
  intro pid killed stands
  have apart : pid ≠ pgid := by
    rintro rfl
    exact free killed stands
  exact ⟨killed, by rw [setGroup_other apart, stands], id⟩

end Keeping

/-- The unreaped child of a call leads the group of this call, and the group is
killed once the call has done so. -/
structure Owned (s : CommandState) : Prop where
  child : ∀ command pid, (s.commands command).child = some pid → 0 < pid ∧
    ∃ killed, s.system pid = some ⟨some command, false, killed⟩ ∧
      ((s.commands command).hasKilled = true → killed = true)
  pgid : ∀ command group, (s.commands command).group = some group → group.pgid = some group.child

section Owning
variable {s t : CommandState} {command : Nat} {action : CommandAction}

/-- Commands that stay where they are own their groups as long as these are kept. -/
theorem Owned.kept (owned : Owned s) (same : t.commands = s.commands)
    (keeps : ∀ command, Keeps s t command) :
    Owned t where
  child command pid leads := by
    rw [same] at leads ⊢
    obtain ⟨positive, killed, stands, hit⟩ := owned.child command pid leads
    obtain ⟨more, still, grows⟩ := keeps command pid killed stands
    exact ⟨positive, more, still, grows ∘ hit⟩
  pgid := same ▸ owned.pgid

/-- One call moves, and the groups of the others are kept. -/
theorem Owned.moved (owned : Owned s)
    (others : ∀ other, other ≠ command → t.commands other = s.commands other ∧ Keeps s t other)
    (child : ∀ pid, (t.commands command).child = some pid → 0 < pid ∧
      ∃ killed, t.system pid = some ⟨some command, false, killed⟩ ∧
        ((t.commands command).hasKilled = true → killed = true))
    (pgid : ∀ group, (t.commands command).group = some group → group.pgid = some group.child) :
    Owned t where
  child other pid leads := by
    by_cases own : other = command
    · subst own
      exact child pid leads
    · obtain ⟨same, keeps⟩ := others other own
      rw [same] at leads ⊢
      obtain ⟨positive, killed, stands, hit⟩ := owned.child other pid leads
      obtain ⟨more, still, grows⟩ := keeps pid killed stands
      exact ⟨positive, more, still, grows ∘ hit⟩
  pgid other group has := by
    by_cases own : other = command
    · subst own
      exact pgid group has
    · rw [(others other own).1] at has
      exact owned.pgid other group has

/-- The child of a call that waits for it. -/
theorem Owned.waiting (owned : Owned s) {group : RunningGroup}
    (waits : s.commands command = .running group ∨ s.commands command = .killing group) :
    0 < group.child ∧ group.pgid = some group.child ∧ ∃ killed,
      s.system group.child = some ⟨some command, false, killed⟩ := by
  have leads : (s.commands command).child = some group.child := by
    rcases waits with is | is <;> rw [is] <;> rfl
  have has : (s.commands command).group = some group := by
    rcases waits with is | is <;> rw [is] <;> rfl
  obtain ⟨positive, killed, stands, _⟩ := owned.child command _ leads
  exact ⟨positive, owned.pgid command group has, killed, stands⟩

/-- The signal of a call reaches its own group. -/
theorem Owned.kills (owned : Owned s) {child : Int} {killed : Bool} {stage : CommandStage}
    (own : s.system child = some ⟨some command, false, killed⟩) (positive : 0 < child)
    (leads : stage.child = some child)
    (pgid : ∀ group, stage.group = some group → group.pgid = some group.child) :
    Owned ((s.killGroup child).setCommand command stage) := by
  refine owned.moved (fun other different => ⟨setCommand_other different,
    keeps_killGroup s child other⟩) ?_ ?_
  · intro pid is
    rw [setCommand_same, leads] at is
    cases is
    exact ⟨positive, true, by rw [setCommand_system, killGroup, setGroup_same, own]; rfl,
      fun _ => rfl⟩
  · rw [setCommand_same]
    exact pgid

/-- Every action leaves each command the owner of its group. -/
theorem Owned.step (owned : Owned s) (stepped : s.step action = some t) : Owned t := by
  cases command_moves stepped with
  | @spawn command pid idle positive free =>
      have others (other : Nat) :
          Keeps s (s.setGroup pid (some ⟨some command, false, false⟩)) other :=
        keeps_setGroup other fun killed stands => by rw [free] at stands; cases stands
      refine owned.moved (fun other different => ⟨setCommand_other different, others other⟩) ?_ ?_
      · intro leader leads
        rw [setCommand_same] at leads ⊢
        cases leads
        exact ⟨positive, false, setGroup_same, nofun⟩
      · rw [setCommand_same]
        nofun
  | @register command child spawned =>
      obtain ⟨positive, killed, stands, _⟩ := owned.child command child (by rw [spawned]; rfl)
      refine owned.moved (fun other different => ⟨setCommand_other different, keeps_same rfl⟩) ?_ ?_
      · intro leader leads
        rw [setCommand_same] at leads ⊢
        cases leads
        exact ⟨positive, killed, stands, nofun⟩
      · rw [setCommand_same]
        rintro _ ⟨rfl⟩
        simp [RunningGroup.register, positive]
  | @wait command group waits =>
      obtain ⟨_, pgid, killed, stands⟩ := owned.waiting waits
      refine owned.moved (fun other different => ⟨setCommand_other different,
        keeps_reap stands different⟩) ?_ ?_
      · rw [setCommand_same]
        nofun
      · rw [setCommand_same]
        rintro _ ⟨rfl⟩
        exact pgid
  | @stop command group runs =>
      obtain ⟨positive, pgid, killed, stands⟩ := owned.waiting (.inl runs)
      rw [if_pos positive]
      exact owned.kills stands positive rfl (by rintro _ ⟨rfl⟩; exact pgid)
  | @leave command group waits =>
      obtain ⟨positive, pgid, killed, stands⟩ := owned.waiting waits
      rw [pgid, Option.elim_some]
      exact owned.kills stands positive rfl (by rintro _ ⟨rfl⟩; exact pgid)
  | @unlist command group orphan done =>
      refine owned.moved (fun other different => ⟨setCommand_other different, keeps_same rfl⟩) ?_ ?_
      · intro leader leads
        rw [setCommand_same] at leads ⊢
        rcases done with ⟨_, rfl⟩ | ⟨drops, rfl⟩
        · cases leads
        · obtain ⟨positive, killed, stands, hit⟩ :=
            owned.child command leader (by rw [drops]; exact leads)
          exact ⟨positive, killed, stands, fun _ => hit (by rw [drops]; rfl)⟩
      · rw [setCommand_same]
        nofun
  | killRunningCommands => exact owned.kept rfl (keeps_killRunning s)
  | @reapOrphan command child left =>
      obtain ⟨_, killed, stands, _⟩ := owned.child command child (by rw [left]; rfl)
      refine owned.moved (fun other different => ⟨setCommand_other different,
        keeps_reap stands different⟩) ?_ ?_
      · rw [setCommand_same]
        nofun
      · rw [setCommand_same]
        nofun
  | @groupEnds pgid group stands empty =>
      refine owned.kept rfl fun command => keeps_setGroup command fun killed own => ?_
      rw [stands] at own
      cases own
      rcases empty with nobody | reaped
      · cases nobody
      · cases reaped
  | otherStarts free =>
      exact owned.kept rfl fun command => keeps_setGroup command fun killed own => by
        rw [free] at own; cases own

/-- At the start no command has a group. -/
theorem Owned.initial (started : commandMachine.start s) : Owned s where
  child command pid leads := by rw [started.2.1 command] at leads; cases leads
  pgid command group has := by rw [started.2.1 command] at has; cases has

/-- In every run each command owns its group. -/
theorem Owned.of_reachable {guard : CommandState → CommandAction → Prop}
    (reached : commandMachine.ReachableUnder guard s) :
    Owned s := reached.invariant (fun _ started => .initial started) fun _ _ _ owned _ stepped =>
      owned.step stepped

end Owning

/-- The list holds the groups of the calls that have not unlisted theirs, and no
other program has such a group. -/
structure Listed (s : CommandState) : Prop where
  exact : ∀ pgid, pgid ∈ s.runningGroups ↔ ∃ command, (s.commands command).listed = some pgid
  alone : ∀ pgid first second, (s.commands first).listed = some pgid →
    (s.commands second).listed = some pgid → first = second
  mine : ∀ pgid group, pgid ∈ s.runningGroups → s.system pgid = some group →
    ∃ command, group.command = some command ∧ (s.commands command).listed = some pgid
  spared : ∀ pgid group, s.system pgid = some group → group.command = none → group.killed = false

section Listing
variable {s t : CommandState} {command : Nat} {action : CommandAction} {stage : CommandStage}

/-- A command that moves within its run is listed as before. -/
theorem listed_setCommand (same : stage.listed = (s.commands command).listed) (other : Nat) :
    ((s.setCommand command stage).commands other).listed = (s.commands other).listed := by
  by_cases own : other = command
  · rw [own, setCommand_same, same]
  · rw [setCommand_other own]

/-- The list is kept, and every group that is in it has the same command as before. -/
theorem Listed.kept (listed : Listed s) (groups : t.runningGroups = s.runningGroups)
    (commands : ∀ command, (t.commands command).listed = (s.commands command).listed)
    (system : ∀ pgid group, t.system pgid = some group →
      (group.command = none ∧ group.killed = false ∧ pgid ∉ s.runningGroups) ∨
      (∃ command, group.command = some command ∧ pgid ∉ s.runningGroups) ∨
      ∃ before, s.system pgid = some before ∧ group.command = before.command ∧
        (before.command = none → pgid ∉ s.runningGroups → group.killed = before.killed)) :
          Listed t where
  exact pgid := by simp only [groups, commands, listed.exact]
  alone pgid first second := by
    rw [commands, commands]
    exact listed.alone pgid first second
  mine pgid group member stands := by
    rw [groups] at member
    rcases system pgid group stands with ⟨_, _, apart⟩ | ⟨_, _, apart⟩ | ⟨before, stood, same, _⟩
    · exact absurd member apart
    · exact absurd member apart
    · obtain ⟨command, has, lists⟩ := listed.mine pgid before member stood
      exact ⟨command, same.trans has, (commands command).trans lists⟩
  spared pgid group stands nobody := by
    rcases system pgid group stands with
      ⟨_, spared, _⟩ | ⟨command, has, _⟩ | ⟨before, stood, same, kept⟩
    · exact spared
    · rw [nobody] at has
      cases has
    · rw [same] at nobody
      have apart : pgid ∉ s.runningGroups := by
        intro member
        obtain ⟨command, has, _⟩ := listed.mine pgid before member stood
        rw [nobody] at has
        cases has
      rw [kept nobody apart]
      exact listed.spared pgid before stood nobody

/-- A group whose leader is owned by a call changes only in its marks. -/
theorem Listed.marked (listed : Listed s) {child : Int} {group : ProcessGroup}
    {change : ProcessGroup → ProcessGroup}
    (owner : ∀ group, (change group).command = group.command) (own : s.system child = some group)
    (has : group.command ≠ none) (same : stage.listed = (s.commands command).listed) :
    Listed ((s.setGroup child ((s.system child).map change)).setCommand command stage) := by
  refine listed.kept rfl (fun other => listed_setCommand same other) fun pgid after stands =>
    .inr (.inr ?_)
  rw [setCommand_system] at stands
  by_cases here : pgid = child
  · subst here
    rw [setGroup_same, own] at stands
    cases stands
    exact ⟨group, own, owner group, fun nobody => absurd nobody has⟩
  · rw [setGroup_other here] at stands
    exact ⟨after, stands, rfl, fun _ _ => rfl⟩

/-- A command that waits or kills is listed by its own process. -/
theorem listed_of_waits (owned : Owned s) {group : RunningGroup}
    (waits : s.commands command = .running group ∨ s.commands command = .killing group) :
    (s.commands command).listed = some group.child := by
  have pgid := (owned.waiting waits).2.1
  rcases waits with is | is <;> rw [is] <;> exact pgid

/-- As long as no process takes a listed number, every action keeps the list exact. -/
theorem Listed.step (listed : Listed s) (owned : Owned s) (fresh : notReused s action)
    (stepped : s.step action = some t) : Listed t := by
  cases command_moves stepped with
  | @spawn command pid idle positive free =>
      refine listed.kept rfl (listed_setCommand (by rw [setGroup_commands, idle]; rfl))
        fun pgid group stands => ?_
      rw [setCommand_system] at stands
      by_cases here : pgid = pid
      · subst here
        rw [setGroup_same] at stands
        cases stands
        exact .inr (.inl ⟨command, rfl, fresh⟩)
      · rw [setGroup_other here] at stands
        exact .inr (.inr ⟨group, stands, rfl, fun _ _ => rfl⟩)
  | @register command child spawned =>
      obtain ⟨positive, killed, stands, _⟩ := owned.child command child (by rw [spawned]; rfl)
      have registered : (RunningGroup.register child).pgid = some child := by
        simp [RunningGroup.register, positive]
      have silent : (s.commands command).listed = none := by rw [spawned]; rfl
      have absent : child ∉ s.runningGroups := by
        intro member
        obtain ⟨other, has, lists⟩ := listed.mine child _ member stands
        cases has
        rw [silent] at lists
        cases lists
      have lists (other : Nat) (pgid : Int) :
          ((setCommand { s with runningGroups := insert child s.runningGroups } command
          (.running (RunningGroup.register child))).commands other).listed = some pgid ↔
          other = command ∧ pgid = child ∨ (s.commands other).listed = some pgid := by
        by_cases own : other = command
        · subst own
          rw [setCommand_same, silent, CommandStage.listed, CommandStage.group, Option.bind_some,
            registered]
          simp [eq_comm]
        · rw [setCommand_other own]
          simp [own]
      rw [registered, Option.elim_some]
      refine ⟨fun pgid => ?_, fun pgid first second one two => ?_,
        fun pgid group member found => ?_, listed.spared⟩
      · simp only [lists, setCommand_groups, Finset.mem_insert, listed.exact, exists_or,
          exists_and_right, exists_eq, true_and]
      · rw [lists] at one two
        rcases one with ⟨rfl, rfl⟩ | one <;> rcases two with ⟨rfl, same⟩ | two
        · rfl
        · exact absurd ((listed.exact _).mpr ⟨second, two⟩) absent
        · exact absurd ((listed.exact _).mpr ⟨first, same ▸ one⟩) absent
        · exact listed.alone pgid first second one two
      · rcases Finset.mem_insert.mp member with rfl | old
        · rw [setCommand_system, stands] at found
          cases found
          exact ⟨command, rfl, (lists command pgid).mpr (.inl ⟨rfl, rfl⟩)⟩
        · obtain ⟨other, has, before⟩ := listed.mine pgid group old found
          exact ⟨other, has, (lists other pgid).mpr (.inr before)⟩
  | @wait command group waits =>
      obtain ⟨_, pgid, killed, stands⟩ := owned.waiting waits
      exact listed.marked (fun _ => rfl) stands nofun
        (pgid.trans (listed_of_waits owned waits).symm)
  | @stop command group runs =>
      obtain ⟨positive, pgid, killed, stands⟩ := owned.waiting (.inl runs)
      rw [if_pos positive]
      exact listed.marked (fun _ => rfl) stands nofun
        (pgid.trans (listed_of_waits owned (.inl runs)).symm)
  | @leave command group waits =>
      obtain ⟨positive, pgid, killed, stands⟩ := owned.waiting waits
      rw [pgid, Option.elim_some]
      exact listed.marked (fun _ => rfl) stands nofun
        (pgid.trans (listed_of_waits owned waits).symm)
  | @unlist command group orphan done =>
      have has : (s.commands command).group = some group := by
        rcases done with ⟨is, _⟩ | ⟨is, _⟩ <;> rw [is] <;> rfl
      have pgid := owned.pgid command group has
      have own : (s.commands command).listed = some group.child := by
        rw [CommandStage.listed, has]; exact pgid
      have lists (other : Nat) (pgid : Int) :
          ((setCommand { s with runningGroups := s.runningGroups.erase group.child }
          command (.ended orphan)).commands other).listed = some pgid ↔
          pgid ≠ group.child ∧ (s.commands other).listed = some pgid := by
        by_cases here : other = command
        · subst here
          rw [setCommand_same, own]
          simp [CommandStage.listed, CommandStage.group, eq_comm]
        · rw [setCommand_other here]
          refine (and_iff_right_of_imp fun before => ?_).symm
          rintro rfl
          exact here (listed.alone _ _ _ before own)
      rw [pgid, Option.elim_some]
      refine ⟨fun pgid => ?_, fun pgid first second one two => ?_,
        fun pgid group member found => ?_, listed.spared⟩
      · simp only [lists, setCommand_groups, Finset.mem_erase, listed.exact, exists_and_left]
      · rw [lists] at one two
        exact listed.alone pgid first second one.2 two.2
      · obtain ⟨apart, old⟩ := Finset.mem_erase.mp member
        obtain ⟨other, has, before⟩ := listed.mine pgid group old found
        exact ⟨other, has, (lists other pgid).mpr ⟨apart, before⟩⟩
  | killRunningCommands =>
      refine listed.kept rfl (fun _ => rfl) fun pgid group stands => .inr (.inr ?_)
      by_cases member : pgid ∈ s.runningGroups
      · simp only [killRunning, member, if_true, Option.map_eq_some_iff] at stands
        obtain ⟨before, stood, rfl⟩ := stands
        exact ⟨before, stood, rfl, fun _ apart => absurd member apart⟩
      · simp only [killRunning, member, if_false] at stands
        exact ⟨group, stands, rfl, fun _ _ => rfl⟩
  | @reapOrphan command child left =>
      obtain ⟨_, killed, stands, _⟩ := owned.child command child (by rw [left]; rfl)
      exact listed.marked (fun _ => rfl) stands nofun (by rw [left]; rfl)
  | @groupEnds pgid group stands empty =>
      refine listed.kept rfl (fun _ => rfl) fun other after found => .inr (.inr ?_)
      by_cases here : other = pgid
      · subst here
        rw [setGroup_same] at found
        cases found
      · rw [setGroup_other here] at found
        exact ⟨after, found, rfl, fun _ _ => rfl⟩
  | @otherStarts pgid free =>
      refine listed.kept rfl (fun _ => rfl) fun other after found => ?_
      by_cases here : other = pgid
      · subst here
        rw [setGroup_same] at found
        cases found
        exact .inl ⟨rfl, rfl, fresh⟩
      · rw [setGroup_other here] at found
        exact .inr (.inr ⟨after, found, rfl, fun _ _ => rfl⟩)

/-- At the start nothing is listed and nothing runs. -/
theorem Listed.initial (started : commandMachine.start s) : Listed s := by
  obtain ⟨empty, idle, others⟩ := started
  have silent (command : Nat) : (s.commands command).listed = none := by rw [idle command]; rfl
  refine ⟨fun pgid => ?_, fun pgid first second one => ?_, fun pgid group member => ?_,
    fun pgid group stands _ => ?_⟩
  · simp [empty, silent]
  · rw [silent] at one
    cases one
  · rw [empty] at member
    exact absurd member (Finset.notMem_empty _)
  · exact (others pgid group stands).2

/-- In every run in which no process takes a listed number, the list is exact. -/
theorem Listed.of_reachable (reached : commandMachine.ReachableUnder notReused s) : Listed s := by
  have initial (s : CommandState) (started : commandMachine.start s) : Owned s ∧ Listed s :=
    ⟨.initial started, .initial started⟩
  refine (reached.invariant initial ?_).2
  rintro s action t ⟨owned, listed⟩ fresh stepped
  exact ⟨owned.step stepped, listed.step owned fresh stepped⟩

/-- In every run, the signal of a call reaches the group of its own unreaped child and no other
group, and a call that ended without reaping its child has killed that group. -/
theorem commands_kill_own (reached : commandMachine.Reachable s) (command : Nat) :
    (∀ action t, action = .stop command ∨ action = .leave command → s.step action = some t →
        ∃ child killed,
      s.system child = some ⟨some command, false, killed⟩ ∧
        t.system = Function.update s.system child (some ⟨some command, false, true⟩)) ∧
    ∀ child, s.commands command = .ended (some child) →
      s.system child = some ⟨some command, false, true⟩ := by
  have owned : Owned s := .of_reachable reached
  have signals {child : Int} {killed : Bool} (stands : s.system child =
      some ⟨some command, false, killed⟩) :
      (s.killGroup child).system = Function.update s.system child
          (some ⟨some command, false, true⟩) := by
    rw [killGroup, stands]
    rfl
  refine ⟨fun action t own stepped => ?_, fun child ended => ?_⟩
  · rcases own with rfl | rfl
    · cases command_moves stepped with
      | @stop command group runs =>
        obtain ⟨positive, _, killed, stands⟩ := owned.waiting (.inl runs)
        rw [if_pos positive]
        exact ⟨group.child, killed, stands, signals stands⟩
    · cases command_moves stepped with
      | @leave command group waits =>
        obtain ⟨_, pgid, killed, stands⟩ := owned.waiting waits
        rw [pgid]
        exact ⟨group.child, killed, stands, signals stands⟩
  · obtain ⟨_, killed, stands, hit⟩ := owned.child command child (by rw [ended]; rfl)
    rw [hit (by rw [ended]; rfl)] at stands
    exact stands

/-- While no id is handed out again before it is unlisted, exactly the groups that a call has
registered and not yet unlisted are in the list, so that `kill_running_commands` kills every
command, and no other program is ever killed. -/
theorem running_groups_exact (reached : commandMachine.ReachableUnder notReused s) :
    (∀ pgid, pgid ∈ s.runningGroups ↔ ∃ command, (s.commands command).listed = some pgid) ∧
    (∀ command group, s.commands command = .running group ∨ s.commands command = .killing group →
      s.killRunning.system group.child = some ⟨some command, false, true⟩) ∧
    ∀ pgid group, s.system pgid = some group → group.command = none → group.killed = false := by
  have owned : Owned s := .of_reachable reached
  have listed : Listed s := .of_reachable reached
  refine ⟨listed.exact, fun command group waits => ?_, listed.spared⟩
  obtain ⟨_, _, killed, stands⟩ := owned.waiting waits
  have member := (listed.exact group.child).mpr ⟨command, listed_of_waits owned waits⟩
  simp [killRunning, member, stands]

end Listing

section Samples

/-- No command runs, and another program has a group. -/
def quietState : CommandState :=
  ⟨∅, Function.update (fun _ => none) 9 (some ⟨none, false, false⟩), fun _ => .idle⟩

/-- The quiet state is one to start from. -/
theorem quietState_start : commandMachine.start quietState := by
  refine ⟨rfl, fun _ => rfl, fun pgid group stands => ?_⟩
  replace stands : Function.update (fun _ => none) 9 (some ⟨none, false, false⟩) pgid =
    some group := stands
  by_cases own : pgid = 9
  · rw [own, Function.update_self] at stands
    cases stands
    exact ⟨rfl, rfl⟩
  · rw [Function.update_of_ne own] at stands
    cases stands

/-- One command runs, and the turn of another one is dropped. -/
def twoCommands : List CommandAction :=
  [.spawn 0 7, .register 0, .spawn 1 8, .register 1, .stop 1, .leave 1, .unlist 1]

/-- One command runs on, and the group of the one that was dropped is killed. -/
theorem commands_kill_sample : ∃ s, commandMachine.exec quietState twoCommands = some s ∧
    s.commands 1 = .ended (some 8) ∧ s.system 8 = some ⟨some 1, false, true⟩ := by
  obtain ⟨s, executed, ended⟩ : ∃ s, commandMachine.exec quietState twoCommands = some s ∧
      s.commands 1 = .ended (some 8) := ⟨_, rfl, rfl⟩
  have reached := Machine.reachable_of_exec quietState_start executed
  exact ⟨s, executed, ended, (commands_kill_own reached 1).2 8 ended⟩

/-- The running command would be killed. -/
theorem running_groups_sample : ∃ s, commandMachine.exec quietState twoCommands = some s ∧
    s.commands 0 = .running ⟨7, some 7⟩ ∧ s.killRunning.system 7 = some ⟨some 0, false, true⟩ := by
  obtain ⟨s, executed, runs⟩ : ∃ s, commandMachine.exec quietState twoCommands = some s ∧
      s.commands 0 = .running ⟨7, some 7⟩ := ⟨_, rfl, rfl⟩
  have permitted : commandMachine.Permits notReused quietState twoCommands :=
    Machine.permits_cons (by decide : (7 : Int) ∉ (∅ : Finset Int)) rfl <|
      Machine.permits_cons trivial rfl <|
      Machine.permits_cons (by decide : (8 : Int) ∉ insert (7 : Int) (∅ : Finset Int)) rfl <|
        Machine.permits_cons trivial rfl <|
      Machine.permits_cons trivial rfl <| Machine.permits_cons trivial rfl <|
        Machine.permits_cons trivial rfl trivial
  have reached : commandMachine.ReachableUnder notReused s :=
    ⟨_, quietState_start, Machine.exec_runs permitted executed⟩
  exact ⟨s, executed, runs, (running_groups_exact reached).2.1 0 _ (.inl runs)⟩

/-- An id that is handed out between the reaping of its child and the unlisting takes the new
command off the list. -/
theorem reused_id_unlists : ∃ s, commandMachine.Reachable s ∧ s.commands 1 = .running ⟨7, some 7⟩ ∧
    7 ∉ s.runningGroups := by
  obtain ⟨s, executed, runs, absent⟩ : ∃ s, commandMachine.exec quietState
      [.spawn 0 7, .register 0, .wait 0, .groupEnds 7, .spawn 1 7, .register 1,
        .unlist 0] = some s ∧
      s.commands 1 = .running ⟨7, some 7⟩ ∧ 7 ∉ s.runningGroups := ⟨_, rfl, rfl, by decide⟩
  exact ⟨s, Machine.reachable_of_exec quietState_start executed, runs, absent⟩

end Samples

end Openheim.Tools
