import Openheim.Memory.Lease
import Openheim.Runtime.PromptTurn

/-
This file follows `delete_session` of `src/client.rs` and `delete_conversation` of
`src/memory/history.rs` beside a turn of the same process and the calls of all processes that
acquire the lease of the conversation.
-/

namespace Openheim.Runtime
open Openheim.Memory

/-- How far a deletion has come. -/
inductive DeleteStage where
  | idle
  | failed (error : Error)
  | checked
  | metaRemoved
  | logRemoved
  | returned
  deriving DecidableEq, Repr

/-- A deletion that has been called and has not returned. -/
def DeleteStage.inProgress : DeleteStage → Bool
  | .checked | .metaRemoved | .logRemoved => true
  | .idle | .failed _ | .returned => false

/-- The lockfile with its calls, the turn with the files of the conversation, and the deletion. -/
structure DeletionState where
  lease : LeaseState
  turn : PromptTurn
  deletion : DeleteStage

/-- What happens next. A removal says whether the file could be removed. -/
inductive DeletionAction where
  | lease (action : LeaseAction)
  | turn (action : PromptAction)
  | callDelete
  | removeMeta (removed : Bool)
  | removeLog (removed : Bool)
  | removeLock (removed : Bool)

/-- The conversation, the name of the host, and the call of `acquire` that a
turn of this process makes. -/
structure DeletionSettings extends PromptSettings where
  host : String
  caller : Caller

namespace DeletionState
variable (settings : DeletionSettings)

/-- No turn runs on the files. -/
def noTurn (files : ConversationFiles) : PromptTurn := ⟨files, false, false, .idle⟩

/-- A turn is over when it has saved or could not begin. -/
def isOver : PromptStage → Bool
  | .saved _ _ _ _ | .failed _ => true
  | _ => false

/-- The lease moves. A turn acquires it before everything else and drops it at its end, and a crash
ends all that the process does. -/
def moveLease (s : DeletionState) (action : LeaseAction) : Option DeletionState :=
  match action with
  | .drop caller =>
      if caller = settings.caller then
        if isOver s.turn.stage then
          (leaseStep settings.id settings.host s.lease action).map fun lease =>
            { s with lease, turn := noTurn s.turn.files }
        else none
      else (leaseStep settings.id settings.host s.lease action).map fun lease => { s with lease }
  | .crash pid =>
      (leaseStep settings.id settings.host s.lease action).map fun lease =>
        if pid = settings.caller.pid then ⟨lease, noTurn s.turn.files, .idle⟩ else { s with lease }
  | _ => (leaseStep settings.id settings.host s.lease action).map fun lease => { s with lease }

/-- A turn goes on while it holds the lease. -/
def moveTurn (s : DeletionState) (action : PromptAction) : Option DeletionState :=
  if s.lease.calls settings.caller = .holding then
    (s.turn.step settings.toPromptSettings action).map fun turn => { s with turn }
  else none

def setFiles (s : DeletionState) (files : ConversationFiles) : DeletionState :=
  { s with turn := { s.turn with files } }

/-- The meta file must exist when the deletion is called. -/
def callDelete (s : DeletionState) : Option DeletionState :=
  if s.lease.alive settings.caller.pid ∧ ¬ s.deletion.inProgress then
    if s.turn.files.metaFile.isSome then some { s with deletion := .checked }
    else some { s with deletion := .failed (.conversationNotFound settings.id) }
  else none

/-- Without the meta file removed, the deletion fails. -/
def removeMeta (s : DeletionState) (removed : Bool) : Option DeletionState :=
  if s.deletion = .checked then
    if removed ∧ s.turn.files.metaFile.isSome then
      some { s.setFiles { s.turn.files with metaFile := none } with deletion := .metaRemoved }
    else some { s with deletion := .failed .ioError }
  else none

/-- The log is removed if it can be. -/
def removeLog (s : DeletionState) (removed : Bool) : Option DeletionState :=
  if s.deletion = .metaRemoved then
    some { s.setFiles (if removed then { s.turn.files with log := none } else s.turn.files) with
      deletion := .logRemoved }
  else none

/-- The lockfile is removed if it can be, whoever holds the lease, and the deletion returns. -/
def removeLock (s : DeletionState) (removed : Bool) : Option DeletionState :=
  if s.deletion = .logRemoved then
    some { s with
      lease := if removed then s.lease.setLockfile none else s.lease, deletion := .returned }
  else none

def step (s : DeletionState) : DeletionAction → Option DeletionState
  | .lease action => s.moveLease settings action
  | .turn action => s.moveTurn settings action
  | .callDelete => s.callDelete settings
  | .removeMeta removed => s.removeMeta removed
  | .removeLog removed => s.removeLog removed
  | .removeLock removed => s.removeLock removed

/-- A turn of this process is in flight from its attempt to acquire the
lease until it drops the lease. -/
def inFlight (s : DeletionState) : Bool := !(s.lease.calls settings.caller).isPast

/-- The conversation is listed when its meta file exists. -/
def listed (s : DeletionState) : Bool := s.turn.files.metaFile.isSome

def loadable (s : DeletionState) : Bool :=
  (loadConversation settings.serde s.turn.files settings.id).isOk

end DeletionState

/-- All runs of turns, of deletions and of the calls that acquire the lease, from any files. -/
def deletionMachine (settings : DeletionSettings) : Machine DeletionState DeletionAction where
  start s := (∀ pid, s.lease.alive pid = false) ∧ (∀ caller, s.lease.calls caller = .idle) ∧
    s.turn.stage = .idle ∧ s.turn.writeFailed = false ∧ s.deletion = .idle
  step := DeletionState.step settings

/-- No turn of this process begins and no deletion is called. -/
def sameTurn (settings : DeletionSettings) (_ : DeletionState) : DeletionAction → Prop
  | .lease (.acquire caller) => caller ≠ settings.caller
  | .callDelete => False
  | _ => True

/-- A deletion permits only itself in this process: it goes on while no turn is in flight, and no
turn begins before it has returned. -/
def undisturbed (settings : DeletionSettings) (s : DeletionState) : DeletionAction → Prop
  | .lease (.acquire caller) => caller = settings.caller → s.deletion.inProgress = false
  | .lease _ | .turn _ => True
  | .callDelete | .removeMeta _ | .removeLog _ | .removeLock _ => s.inFlight settings = false

/-- From here on the turn, if one is in flight, neither lists the conversation again nor makes it
loadable, and no other process obtains the lease while the turn holds it. -/
def DeletionState.Permanent (settings : DeletionSettings) (s : DeletionState) : Prop :=
  ∀ t, (deletionMachine settings).Runs (sameTurn settings) s t →
    t.listed = false ∧ t.loadable settings = false ∧
      (t.lease.calls settings.caller = .holding → ∀ pid, pid ≠ settings.caller.pid →
        ¬ t.lease.Holds pid)

end Openheim.Runtime
