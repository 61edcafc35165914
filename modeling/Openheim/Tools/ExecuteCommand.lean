import Mathlib.Data.Finset.Basic
import Mathlib.Logic.Function.Basic
import Openheim.Library.Machine

/-
This file follows the processes of `src/tools/execute_command.rs`: how the calls of `run_command`
start, signal and reap their children, and the list of their process groups for
`kill_running_commands`.
-/

namespace Openheim.Tools

/-- A process group. That of a command is led by its child, and it stays while a process is in it;
the others belong to other programs. -/
structure ProcessGroup where
  command : Option Nat
  reaped : Bool
  killed : Bool
  deriving DecidableEq, Repr

/-- The child of a call and its process group, if that is listed. -/
structure RunningGroup where
  child : Int
  pgid : Option Int
  deriving DecidableEq, Repr

/-- Process id 0 would name the own group. -/
def RunningGroup.register (pid : Int) : RunningGroup :=
  ⟨pid, (some pid).filter fun pgid => 0 < pgid⟩

/-- The next step of a call. A call that ended without reaping its
child leaves it to the runtime. -/
inductive CommandStage where
  | idle
  | spawned (child : Int)
  | running (group : RunningGroup)
  | killing (group : RunningGroup)
  | reaped (group : RunningGroup)
  | dropping (group : RunningGroup)
  | ended (orphan : Option Int)
  deriving DecidableEq, Repr

/-- The calls of one process, the process groups of the system and those that are listed. -/
structure CommandState where
  runningGroups : Finset Int
  system : Int → Option ProcessGroup
  commands : Nat → CommandStage

inductive CommandAction where
  | spawn (command : Nat) (pid : Int)
  | register (command : Nat)
  | wait (command : Nat)
  | stop (command : Nat)
  | leave (command : Nat)
  | unlist (command : Nat)
  | killRunningCommands
  | reapOrphan (command : Nat)
  | groupEnds (pgid : Int)
  | otherStarts (pgid : Int)
  deriving DecidableEq, Repr

namespace CommandState

def setCommand (s : CommandState) (command : Nat) (stage : CommandStage) : CommandState :=
  { s with commands := Function.update s.commands command stage }

def setGroup (s : CommandState) (pgid : Int) (group : Option ProcessGroup) : CommandState :=
  { s with system := Function.update s.system pgid group }

/-- Sends SIGKILL to a process group. -/
def killGroup (s : CommandState) (pgid : Int) : CommandState :=
  s.setGroup pgid ((s.system pgid).map fun group => { group with killed := true })

/-- The system lets the id of a reaped child go. -/
def reap (s : CommandState) (child : Int) : CommandState :=
  s.setGroup child ((s.system child).map fun group => { group with reaped := true })

/-- `kill_running_commands` holds the lock of the list until every group in it was signalled. -/
def killRunning (s : CommandState) : CommandState :=
  { s with system := fun pgid =>
      if pgid ∈ s.runningGroups then (s.system pgid).map fun group => { group with killed := true }
      else s.system pgid }

def step (s : CommandState) : CommandAction → Option CommandState
  | .spawn command pid =>
      if s.commands command = .idle ∧ 0 < pid ∧ s.system pid = none then
        some ((s.setGroup pid (some ⟨some command, false, false⟩)).setCommand command
          (.spawned pid))
      else none
  | .register command =>
      match s.commands command with
      | .spawned child =>
          let group := RunningGroup.register child
          some (setCommand { s with
            runningGroups := group.pgid.elim s.runningGroups (insert · s.runningGroups) }
            command (.running group))
      | _ => none
  -- The child has exited, by itself or because it was killed.
  | .wait command =>
      match s.commands command with
      | .running group | .killing group =>
          some ((s.reap group.child).setCommand command (.reaped group))
      | _ => none
  -- A timeout or a cancel.
  | .stop command =>
      match s.commands command with
      | .running group =>
          some ((if 0 < group.child then s.killGroup group.child else s).setCommand command
            (.killing group))
      | _ => none
  -- The group is dropped: the wait failed or took too long after the kill, or the turn was dropped
  -- meanwhile.
  | .leave command =>
      match s.commands command with
      | .running group | .killing group =>
          some ((group.pgid.elim s s.killGroup).setCommand command (.dropping group))
      | _ => none
  | .unlist command =>
      let erased (group : RunningGroup) (orphan : Option Int) :=
        setCommand { s with runningGroups := group.pgid.elim s.runningGroups s.runningGroups.erase }
          command
          (.ended orphan)
      match s.commands command with
      | .reaped group => some (erased group none)
      | .dropping group => some (erased group (some group.child))
      | _ => none
  | .killRunningCommands => some s.killRunning
  -- The runtime reaps the children that were dropped.
  | .reapOrphan command =>
      match s.commands command with
      | .ended (some child) => some ((s.reap child).setCommand command (.ended none))
      | _ => none
  | .groupEnds pgid =>
      match s.system pgid with
      | some group => if group.command = none ∨ group.reaped then
          some (s.setGroup pgid none) else none
      | none => none
  | .otherStarts pgid =>
      if s.system pgid = none then some (s.setGroup pgid (some ⟨none, false, false⟩)) else none

end CommandState

/-- All runs of the commands of one process, among other programs. -/
def commandMachine : Machine CommandState CommandAction where
  start s := s.runningGroups = ∅ ∧ (∀ command, s.commands command = .idle) ∧
    ∀ pgid group, s.system pgid = some group → group.command = none ∧ group.killed = false
  step := CommandState.step

/-- The system hands no id out again while it is still listed. -/
def notReused (s : CommandState) : CommandAction → Prop
  | .spawn _ pid | .otherStarts pid => pid ∉ s.runningGroups
  | _ => True

end Openheim.Tools
