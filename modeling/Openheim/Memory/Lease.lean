import Mathlib.Logic.Function.Basic
import Openheim.Core.Error
import Openheim.Library.Machine

/-
This file follows `src/memory/lease.rs`: the steps in which the processes of one host acquire and
drop the write lease of one conversation.
-/

namespace Openheim.Memory

/-- The holder that a lockfile names. -/
structure LeaseInfo where
  pid : Nat
  hostname : String
  deriving DecidableEq, Repr

/-- A lockfile has no readable contents until its creator has written them. The inode tells it apart
from every other file that had its path. -/
structure LockFile where
  inode : Nat
  contents : Option LeaseInfo
  deriving DecidableEq, Repr

/-- One call of `acquire` in a process, and the lease that comes of it. -/
structure Caller where
  pid : Nat
  task : Nat
  deriving DecidableEq, Repr

/-- The next step of a call. A version names the moment at which the call last read the lockfile. -/
inductive LeaseCall where
  | idle
  | failed (reason : Error)
  | reading
  | creating
  | writing (inode : Nat)
  | rereading
  | aging (version : Nat)
  | testing (existing : LeaseInfo) (version : Nat)
  | overwriting (version : Nat)
  | holding
  | dropping
  | removing (version : Nat)
  deriving DecidableEq, Repr

/-- A call that neither holds the lease nor is on the way to it. -/
def LeaseCall.isPast : LeaseCall → Bool
  | .idle | .failed _ | .dropping | .removing _ => true
  | _ => false

/-- The version counts the changes of the lockfile; no process can see it. -/
structure LeaseState where
  lockfile : Option LockFile
  version : Nat
  alive : Nat → Bool
  calls : Caller → LeaseCall

inductive LeaseAction where
  | spawn (pid : Nat)
  | crash (pid : Nat)
  | acquire (caller : Caller)
  | drop (caller : Caller)
  | advance (caller : Caller) (old : Bool)
  | ioError (caller : Caller)
  deriving DecidableEq, Repr

namespace LeaseState

/-- The lease that a read of the lockfile returns. -/
def lease (s : LeaseState) : Option LeaseInfo := s.lockfile.bind LockFile.contents

def setCall (s : LeaseState) (caller : Caller) (call : LeaseCall) : LeaseState :=
  { s with calls := Function.update s.calls caller call }

/-- Every change of the lockfile makes a new version of it. -/
def setLockfile (s : LeaseState) (file : Option LockFile) : LeaseState :=
  { s with lockfile := file, version := s.version + 1 }

/-- A temp file is renamed to the path of the lockfile, whatever was there. -/
def writeAtomic (s : LeaseState) (info : LeaseInfo) : LeaseState :=
  s.setLockfile (some ⟨s.version + 1, some info⟩)

/-- The contents reach the file that was created, which may have lost its path. -/
def writeAll (s : LeaseState) (inode : Nat) (info : LeaseInfo) : LeaseState :=
  if s.lockfile.map LockFile.inode = some inode then s.setLockfile (some ⟨inode, some info⟩) else s

/-- The age of a file that cannot be read counts as old. -/
def olderThan (s : LeaseState) (old : Bool) : Bool := s.lockfile.isNone || old

/-- A process holds the lease while one of its calls does. -/
def Holds (s : LeaseState) (pid : Nat) : Prop := ∃ task, s.calls ⟨pid, task⟩ = .holding

@[simp] theorem setCall_version (s : LeaseState) (caller : Caller) (call : LeaseCall) :
    (s.setCall caller call).version = s.version := rfl

@[simp] theorem setCall_calls (s : LeaseState) (caller : Caller) (call : LeaseCall) :
    (s.setCall caller call).calls = Function.update s.calls caller call := rfl

@[simp] theorem setLockfile_version (s : LeaseState) (file : Option LockFile) :
    (s.setLockfile file).version = s.version + 1 := rfl

@[simp] theorem setLockfile_calls (s : LeaseState) (file : Option LockFile) :
    (s.setLockfile file).calls = s.calls := rfl

end LeaseState

section Host
variable (id : Uuid) (host : String)

/-- A call fails with the holder that it found. -/
def sessionLocked (holder : LeaseInfo) : LeaseCall :=
  .failed (.sessionLocked id holder.pid holder.hostname)

/-- Only a process of this host is tested; the lease of another host is stale by its age. -/
def isStale (s : LeaseState) (existing : LeaseInfo) (old : Bool) : Bool :=
  if existing.hostname = host then !s.alive existing.pid else s.olderThan old

/-- What `acquire` does next after it read the lockfile. -/
def afterRead (caller : Caller) (version : Nat) : Option LeaseInfo → LeaseCall
  | none => .creating
  | some existing =>
      if existing.pid = caller.pid ∧ existing.hostname = host then .overwriting version
      else .testing existing version

/-- One step of a call. -/
def advance (s : LeaseState) (caller : Caller) (old : Bool) : Option LeaseState :=
  match s.calls caller with
  | .reading => some (s.setCall caller (afterRead host caller s.version s.lease))
  | .creating =>
      match s.lockfile with
      | none =>
          some ((s.setLockfile (some ⟨s.version + 1, none⟩)).setCall caller
            (.writing (s.version + 1)))
      | some _ => some (s.setCall caller .rereading)
  | .writing inode => some ((s.writeAll inode ⟨caller.pid, host⟩).setCall caller .holding)
  | .rereading =>
      match s.lease with
      | some holder => some (s.setCall caller (sessionLocked id holder))
      | none => some (s.setCall caller (.aging s.version))
  | .aging version =>
      if s.olderThan old then some (s.setCall caller (.overwriting version))
      else some (s.setCall caller (sessionLocked id ⟨0, "unknown"⟩))
  | .testing existing version =>
      if isStale host s existing old then some (s.setCall caller (.overwriting version))
      else some (s.setCall caller (sessionLocked id existing))
  | .overwriting _ => some ((s.writeAtomic ⟨caller.pid, host⟩).setCall caller .holding)
  | .dropping =>
      if s.lease = some ⟨caller.pid, host⟩ then some (s.setCall caller (.removing s.version))
      else some (s.setCall caller .idle)
  | .removing _ => some ((s.setLockfile none).setCall caller .idle)
  | .idle | .failed _ | .holding => none

/-- The calls that an input or output error can end. -/
def canFail : LeaseCall → Bool
  | .creating | .writing _ | .overwriting _ => true
  | _ => false

def leaseStep (s : LeaseState) : LeaseAction → Option LeaseState
  | .spawn pid => if s.alive pid then none
      else some { s with alive := Function.update s.alive pid true }
  | .crash pid =>
      if s.alive pid then
        some { s with
          alive := Function.update s.alive pid false
          calls := fun caller => if caller.pid = pid then .idle else s.calls caller }
      else none
  | .acquire caller =>
      match s.calls caller with
      | .idle | .failed _ => if s.alive caller.pid then some (s.setCall caller .reading) else none
      | _ => none
  | .drop caller => if s.calls caller = .holding then some (s.setCall caller .dropping) else none
  | .advance caller old => advance id host s caller old
  | .ioError caller => if canFail (s.calls caller) then
      some (s.setCall caller (.failed .ioError)) else none

/-- No process runs at the start, and an earlier one may have left a lockfile. -/
def leaseMachine : Machine LeaseState LeaseAction where
  start s := (∀ pid, s.alive pid = false) ∧ ∀ caller, s.calls caller = .idle
  step := leaseStep id host

end Host

end Openheim.Memory
