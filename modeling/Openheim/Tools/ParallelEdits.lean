import Mathlib.Data.List.Range
import Mathlib.Data.List.Permutation
import Mathlib.Logic.Function.Basic
import Openheim.Library.Machine
import Openheim.Tools.EditFile

/-
This file lets the calls of one reply run on one file at the same time, as `run_agent` starts them.
-/

namespace Openheim.Tools

/-- How far a call has come: an edit has read the file, or a write has emptied
it, or the call has returned. -/
inductive CallStage where
  | waiting
  | planned (read : Option (List UInt8)) (data : List UInt8) (message : String)
  | emptied (data : List UInt8) (message : String)
  | finished (result : Except Error String)

/-- The call is in the middle of its write. -/
def CallStage.isEmptied : CallStage → Bool
  | .emptied _ _ => true
  | _ => false

structure SharedFile where
  content : Option (List UInt8)
  stages : Nat → CallStage

inductive FileAction where
  | advance (number : Nat) (ioOk : Bool)
  deriving DecidableEq, Repr

namespace SharedFile

def setStage (s : SharedFile) (number : Nat) (stage : CallStage) : SharedFile :=
  { s with stages := Function.update s.stages number stage }

/-- A write empties the file first, and its data reaches the start of the file in a second step. -/
def empty (s : SharedFile) (number : Nat) (data : List UInt8) (message : String) : SharedFile :=
  { s with content := some [] }.setStage number (.emptied data message)

/-- The data replaces as many bytes as it has, and bytes after them stay. -/
def fill (s : SharedFile) (number : Nat) (data : List UInt8) (message : String) : SharedFile :=
  { s with content := some (data ++ (s.content.getD []).drop data.length) }.setStage number
    (.finished (.ok message))

section Calls
variable (path : String) (calls : List FileCall)

def fileStep (s : SharedFile) : FileAction → Option SharedFile
  | .advance number ioOk =>
      match calls[number]?, s.stages number with
      | some (.edit args), .waiting =>
          match FileCall.plan path s.content (.edit args) with
          | .ok (data, message) => some (s.setStage number (.planned s.content data message))
          | .error reason => some (s.setStage number (.finished (.error reason)))
      | some (.write content), .waiting =>
          if ioOk then
            some (s.empty number (Utf8.encode content) ("Successfully wrote to " ++ path))
          else some (s.setStage number (.finished (.error .ioError)))
      | some _, .planned _ data message =>
          if ioOk then some (s.empty number data message)
          else some (s.setStage number (.finished (.error .ioError)))
      | some _, .emptied data message =>
          if ioOk then some (s.fill number data message)
          else some (s.setStage number (.finished (.error .ioError)))
      | _, _ => none

/-- All calls wait at the start, and the file has any content or none. -/
def fileMachine (initial : Option (List UInt8)) : Machine SharedFile FileAction where
  start s := s.content = initial ∧ ∀ number, s.stages number = .waiting
  step := fileStep path calls

/-- The calls with the given numbers run one after another. -/
def applyAll (initial : Option (List UInt8)) (order : List Nat) :
    Except Error (Option (List UInt8)) :=
  order.foldlM (fun content number =>
    match calls[number]? with
    | some call => (call.plan path content).map fun planned => some planned.1
    | none => .ok content) initial

end Calls

/-- A call touches the file only while no other call is in the middle of its write, and an edit
writes only while the file still has the content that it read. -/
def Undisturbed (calls : List FileCall) (s : SharedFile) : FileAction → Prop
  | .advance number _ =>
      (∀ other, other < calls.length → other ≠ number → (s.stages other).isEmptied = false) ∧
        match s.stages number with
        | .planned read _ _ => s.content = read
        | _ => True

/-- What the file holds, or will hold when the one write that has begun is complete. -/
def Settles (s : SharedFile) (content : Option (List UInt8)) : Prop :=
  ((∀ number data message, s.stages number ≠ .emptied data message) ∧ s.content = content) ∨
    ∃ number data message, s.stages number = .emptied data message ∧ s.content = some [] ∧
      content = some data ∧ ∀ other data message, s.stages other = .emptied data message →
        other = number

end SharedFile

/-- The call has begun to write or has written. -/
def CallStage.hasWritten : CallStage → Bool
  | .emptied _ _ => true
  | .finished (.ok _) => true
  | _ => false

namespace SharedFile

/-- The writes so far have the effect of their calls one after another. -/
structure Serial (path : String) (calls : List FileCall) (initial : Option (List UInt8))
    (s : SharedFile) (order : List Nat) : Prop where
  distinct : order.Nodup
  written : ∀ number, number ∈ order ↔ (s.stages number).hasWritten
  applied : ∃ content, applyAll path calls initial order = .ok content ∧ s.Settles content
  plans : ∀ number read data message, s.stages number = .planned read data message →
    ∃ call, calls[number]? = some call ∧ call.plan path read = .ok (data, message)
  known : ∀ number, s.stages number ≠ .waiting → number < calls.length

/-- Either a call failed or the writes are serial. -/
def SerialOrFailed (path : String) (calls : List FileCall) (initial : Option (List UInt8))
    (s : SharedFile) : Prop :=
  (∃ number reason, number < calls.length ∧ s.stages number = .finished (.error reason)) ∨
    ∃ order, s.Serial path calls initial order

section Serialization
variable {path : String} {calls : List FileCall} {initial : Option (List UInt8)} {s t : SharedFile}
  {number : Nat}

theorem applyAll_concat {order : List Nat} {content : Option (List UInt8)} {call : FileCall}
    {data : List UInt8}
    {message : String} (before : applyAll path calls initial order = .ok content)
    (found : calls[number]? = some call) (plan : call.plan path content = .ok (data, message)) :
    applyAll path calls initial (order ++ [number]) = .ok (some data) := by
  rw [applyAll] at before ⊢
  rw [List.foldlM_append, before]
  simp [bind, Except.bind, found, plan, Except.map, pure, Except.pure]

@[simp] theorem setStage_stages (s : SharedFile) (number : Nat) (stage : CallStage) :
    (s.setStage number stage).stages = Function.update s.stages number stage := rfl

@[simp] theorem setStage_content (s : SharedFile) (number : Nat) (stage : CallStage) :
    (s.setStage number stage).content = s.content := rfl

/-- A call that did not write goes on without touching the file. -/
theorem Serial.setStage {order : List Nat} (serial : s.Serial path calls initial order)
    {call : FileCall}
    {stage : CallStage} (found : calls[number]? = some call)
    (fresh : (s.stages number).hasWritten = false) (reads : stage.hasWritten = false)
    (plan : ∀ read data message, stage = .planned read data message →
      call.plan path read = .ok (data, message)) :
    (s.setStage number stage).Serial path calls initial order where
  distinct := serial.distinct
  written other := by
    rw [serial.written, setStage_stages, Function.update_apply]
    split
    · rename_i own
      rw [own, fresh, reads]
    · rfl
  applied := by
    obtain ⟨content, applied, settles⟩ := serial.applied
    have apart : ∀ other data message,
        (s.setStage number stage).stages other = .emptied data message ↔
        s.stages other = .emptied data message := by
      intro other data message
      rw [setStage_stages, Function.update_apply]
      split
      · rename_i own
        subst own
        constructor
        · intro now
          simp [now, CallStage.hasWritten] at reads
        · intro before
          simp [before, CallStage.hasWritten] at fresh
      · rfl
    refine ⟨content, applied, ?_⟩
    simpa only [Settles, ne_eq, apart, setStage_content] using settles
  plans other read data message planned := by
    rw [setStage_stages, Function.update_apply] at planned
    split at planned
    · rename_i own
      rw [own]
      exact ⟨call, found, plan read data message planned⟩
    · exact serial.plans other read data message planned
  known other busy := by
    rw [setStage_stages, Function.update_apply] at busy
    split at busy
    · rename_i own
      rw [own]
      exact (List.getElem?_eq_some_iff.mp found).1
    · exact serial.known other busy

/-- A write begins on a settled file with the data that its call plans for it. -/
theorem Serial.empty {order : List Nat} (serial : s.Serial path calls initial order)
    {call : FileCall} {data : List UInt8} {message : String} (found : calls[number]? = some call)
    (fresh : (s.stages number).hasWritten = false)
    (alone : ∀ other data message, s.stages other = .emptied data message → other = number)
    (plan : call.plan path s.content = .ok (data, message)) :
    (s.empty number data message).Serial path calls initial (order ++ [number]) where
  distinct := by
    rw [List.nodup_append]
    refine ⟨serial.distinct, List.nodup_singleton number, ?_⟩
    intro other old last new same
    rw [same, List.mem_singleton.mp new, serial.written, fresh] at old
    exact absurd old (by decide)
  written other := by
    rw [List.mem_append, serial.written, SharedFile.empty, setStage_stages, Function.update_apply,
      List.mem_singleton]
    split
    · rename_i own
      simp [own, CallStage.hasWritten]
    · rename_i different
      simp [different]
  applied := by
    obtain ⟨content, applied, settles⟩ := serial.applied
    have settled : s.content = content := by
      rcases settles with ⟨_, same⟩ | ⟨other, _, _, emptied, _⟩
      · exact same
      · rw [alone _ _ _ emptied] at emptied
        simp [emptied, CallStage.hasWritten] at fresh
    rw [settled] at plan
    refine ⟨some data, applyAll_concat applied found plan,
      .inr ⟨number, data, message, ?_, rfl, rfl, ?_⟩⟩
    · simp [SharedFile.empty]
    · intro other data' message' emptied
      rw [SharedFile.empty, setStage_stages, Function.update_apply] at emptied
      split at emptied
      · assumption
      · exact alone other data' message' emptied
  plans other read data' message' planned := by
    rw [SharedFile.empty, setStage_stages, Function.update_apply] at planned
    split at planned
    · simp at planned
    · exact serial.plans other read data' message' planned
  known other busy := by
    rw [SharedFile.empty, setStage_stages, Function.update_apply] at busy
    split at busy
    · rename_i own
      rw [own]
      exact (List.getElem?_eq_some_iff.mp found).1
    · exact serial.known other busy

/-- The one write that has begun is completed. -/
theorem Serial.fill {order : List Nat} (serial : s.Serial path calls initial order)
    {data : List UInt8} {message : String} (emptied : s.stages number = .emptied data message) :
    (s.fill number data message).Serial path calls initial order where
  distinct := serial.distinct
  written other := by
    rw [serial.written, SharedFile.fill, setStage_stages, Function.update_apply]
    split
    · rename_i own
      simp [own, emptied, CallStage.hasWritten]
    · rfl
  applied := by
    obtain ⟨content, applied, settles⟩ := serial.applied
    rcases settles with ⟨calm, _⟩ | ⟨writer, data', message', writes, blank, planned, alone⟩
    · exact absurd emptied (calm number data message)
    · have own := alone number data message emptied
      rw [← own, emptied, CallStage.emptied.injEq] at writes
      refine ⟨content, applied, .inl ⟨?_, ?_⟩⟩
      · intro other data'' message'' later
        rw [SharedFile.fill, setStage_stages, Function.update_apply] at later
        split at later
        · simp at later
        · rename_i different
          exact different ((alone other data'' message'' later).trans own.symm)
      · simp [SharedFile.fill, blank, planned, writes.1]
  plans other read data' message' planned := by
    rw [SharedFile.fill, setStage_stages, Function.update_apply] at planned
    split at planned
    · simp at planned
    · exact serial.plans other read data' message' planned
  known other busy := by
    by_cases own : other = number
    · subst own
      exact serial.known other (by simp [emptied])
    · rw [SharedFile.fill, setStage_stages, Function.update_of_ne own] at busy
      exact serial.known other busy

/-- A step of one call leaves the other calls where they were. -/
theorem fileStep_stages {ioOk : Bool} {other : Nat} (different : other ≠ number)
    (stepped : fileStep path calls s (.advance number ioOk) = some t) :
    t.stages other = s.stages other := by
  simp only [fileStep] at stepped
  repeat' split at stepped
  all_goals cases stepped
  all_goals simp [SharedFile.empty, SharedFile.fill, Function.update_of_ne different]

/-- A call that returned takes no further step. -/
theorem fileStep_finished {ioOk : Bool} {result : Except Error String}
    (returned : s.stages number = .finished result) :
    fileStep path calls s (.advance number ioOk) = none := by
  simp only [fileStep, returned]
  split <;> simp_all

/-- Every undisturbed step keeps the writes serial, unless a call fails. -/
theorem SerialOrFailed.step {action : FileAction} (kept : s.SerialOrFailed path calls initial)
    (undisturbed : Undisturbed calls s action) (stepped : fileStep path calls s action = some t) :
    t.SerialOrFailed path calls initial := by
  obtain ⟨number, ioOk⟩ := action
  rcases kept with ⟨failed, reason, inside, stage⟩ | ⟨order, serial⟩
  · have apart : failed ≠ number := by
      rintro rfl
      simp [fileStep_finished stage] at stepped
    exact .inl ⟨failed, reason, inside, (fileStep_stages apart stepped).trans stage⟩
  have alone : ∀ other data message, s.stages other = .emptied data message → other = number := by
    intro other data message writes
    by_contra different
    have calm := undisturbed.1 other (serial.known other (by simp [writes])) different
    simp [writes, CallStage.isEmptied] at calm
  cases found : calls[number]? with
  | none => simp [fileStep, found] at stepped
  | some call =>
      have fails : ∀ reason,
          SerialOrFailed path calls initial (s.setStage number (.finished (.error reason))) :=
        fun reason => .inl ⟨number, reason, (List.getElem?_eq_some_iff.mp found).1, by simp⟩
      cases stage : s.stages number with
      | waiting =>
          have fresh : (s.stages number).hasWritten = false := by rw [stage]; rfl
          cases call with
          | edit args =>
              simp only [fileStep, found, stage] at stepped
              cases plan : FileCall.plan path s.content (.edit args) with
              | ok planned =>
                  obtain ⟨data, message⟩ := planned
                  simp only [plan, Option.some.injEq] at stepped
                  subst stepped
                  refine .inr ⟨order, serial.setStage found fresh rfl ?_⟩
                  intro read data' message' same
                  cases same
                  exact plan
              | error reason =>
                  simp only [plan, Option.some.injEq] at stepped
                  exact stepped ▸ fails reason
          | write content =>
              simp only [fileStep, found, stage] at stepped
              split at stepped
              · cases stepped
                exact .inr ⟨_, serial.empty found fresh alone rfl⟩
              · cases stepped
                exact fails .ioError
      | planned read data message =>
          simp only [fileStep, found, stage] at stepped
          split at stepped
          · cases stepped
            obtain ⟨planner, own, plan⟩ := serial.plans number read data message stage
            have unchanged := undisturbed.2
            simp only [stage] at unchanged
            rw [← unchanged] at plan
            exact .inr ⟨_, serial.empty own (by rw [stage]; rfl) alone plan⟩
          · cases stepped
            exact fails .ioError
      | emptied data message =>
          simp only [fileStep, found, stage] at stepped
          split at stepped
          · cases stepped
            exact .inr ⟨order, serial.fill stage⟩
          · cases stepped
            exact fails .ioError
      | finished result => simp [fileStep, found, stage] at stepped

/-- If every access of a call is undisturbed and all calls succeed, then the file holds what the
calls make of it one after another in some order. -/
theorem parallel_edits_serial
    (reached : (fileMachine path calls initial).ReachableUnder (Undisturbed calls) s)
    (succeeded : ∀ number, number < calls.length → ∃ message,
      s.stages number = .finished (.ok message)) :
    ∃ order : List Nat, order.Perm (List.range calls.length) ∧
      applyAll path calls initial order = .ok s.content := by
  have kept : s.SerialOrFailed path calls initial := by
    apply reached.invariant
    · intro first start
      refine .inr ⟨[], by simp, fun number => ?_, ⟨initial, rfl, .inl ⟨fun number => ?_, start.1⟩⟩,
        fun number => ?_, fun number => ?_⟩ <;> simp [start.2 number, CallStage.hasWritten]
    · intro before action after inv undisturbed stepped
      exact inv.step undisturbed stepped
  rcases kept with ⟨number, reason, inside, failed⟩ | ⟨order, serial⟩
  · obtain ⟨message, returned⟩ := succeeded number inside
    simp [failed] at returned
  · have returned : ∀ number data message, s.stages number ≠ .emptied data message := by
      intro number data message writes
      obtain ⟨_, done⟩ := succeeded number (serial.known number (by simp [writes]))
      simp [writes] at done
    obtain ⟨content, applied, settles⟩ := serial.applied
    refine ⟨order, (List.perm_ext_iff_of_nodup serial.distinct List.nodup_range).mpr
      fun number => ?_, ?_⟩
    · rw [serial.written, List.mem_range]
      constructor
      · intro written
        apply serial.known
        intro waits
        simp [waits, CallStage.hasWritten] at written
      · intro inside
        obtain ⟨message, done⟩ := succeeded number inside
        simp [done, CallStage.hasWritten]
    · rcases settles with ⟨_, same⟩ | ⟨number, data, message, writes, _⟩
      · rw [applied, same]
      · exact absurd writes (returned number data message)

end Serialization

/-- Two edits of different places of the sample file. -/
def sampleEdits : List FileCall := [.edit ⟨['a'], ['x'], none⟩, .edit ⟨['b'], ['y'], none⟩]

def sampleFile : Option (List UInt8) := some (Utf8.encode ['a', 'b'])

/-- The sample file before its calls. -/
def sampleStart : SharedFile := ⟨sampleFile, fun _ => .waiting⟩

theorem sampleStart_start : (fileMachine "f" sampleEdits sampleFile).start sampleStart :=
  ⟨rfl, fun _ => rfl⟩

/-- Both edits read the file before either writes it, so the second write undoes the first edit. -/
theorem lost_update : ∃ s, (fileMachine "f" sampleEdits sampleFile).Reachable s ∧
    (∀ number, number < sampleEdits.length → ∃ message, s.stages number = .finished (.ok message)) ∧
    ∀ order : List Nat, order.Perm (List.range sampleEdits.length) →
      applyAll "f" sampleEdits sampleFile order ≠ .ok s.content := by
  have executed : (fileMachine "f" sampleEdits sampleFile).exec sampleStart
    [.advance 0 true, .advance 1 true, .advance 0 true, .advance 0 true, .advance 1 true,
      .advance 1 true] =
      some _ := rfl
  refine ⟨_, Machine.reachable_of_exec sampleStart_start executed, ?_, ?_⟩
  · intro number inside
    match number, inside with
    | 0, _ => exact ⟨_, rfl⟩
    | 1, _ => exact ⟨_, rfl⟩
  · intro order perm
    have member : order ∈ [[0, 1], [1, 0]] := List.mem_permutations'.mpr perm
    rcases List.mem_cons.mp member with rfl | member
    · decide
    · rw [List.mem_singleton.mp member]
      decide

/-- One edit after the other leaves both edits in the file. -/
theorem sample_serial : ∃ s : SharedFile, s.content = some (Utf8.encode ['x', 'y']) ∧
    ∃ order : List Nat, order.Perm (List.range sampleEdits.length) ∧
      applyAll "f" sampleEdits sampleFile order = .ok s.content := by
  have executed : (fileMachine "f" sampleEdits sampleFile).exec sampleStart
    [.advance 0 true, .advance 0 true, .advance 0 true, .advance 1 true, .advance 1 true,
      .advance 1 true] =
      some _ := rfl
  have permitted : (fileMachine "f" sampleEdits sampleFile).Permits (Undisturbed sampleEdits)
      sampleStart
      [.advance 0 true, .advance 0 true, .advance 0 true, .advance 1 true, .advance 1 true,
          .advance 1 true] := by
    repeat
      refine Machine.permits_cons ⟨by decide, by trivial⟩ rfl ?_
    trivial
  refine ⟨_, ?_, parallel_edits_serial ⟨sampleStart, sampleStart_start,
    Machine.exec_runs permitted executed⟩ ?_⟩
  · decide
  · intro number inside
    match number, inside with
    | 0, _ => exact ⟨_, rfl⟩
    | 1, _ => exact ⟨_, rfl⟩

end SharedFile

end Openheim.Tools
