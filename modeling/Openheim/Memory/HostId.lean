import Openheim.Core.Uuid
import Openheim.Library.Lines
import Openheim.Memory.Lease

/-
This file follows `fallback_host_id` of `src/memory/lease.rs`: the steps in which processes without
a system hostname create and read the id file in the temp directory of their host.
-/

namespace Openheim.Memory

/-- The file with the id of a host. A file that is not UTF-8 has no text. -/
inductive IdFile where
  | absent
  | unreadable
  | text (content : List Char)
  deriving DecidableEq, Repr

/-- The next step of a call. A creator still has the rest of its id to write. -/
inductive HostIdCall where
  | idle
  | reading
  | creating
  | writing (rest : List Char)
  | rereading
  | returned (id : String)
  deriving DecidableEq, Repr

/-- The calls of all hosts are numbered, one for each process. -/
structure HostIdState (Host : Type*) where
  files : Host → IdFile
  calls : Nat → HostIdCall

inductive HostIdAction where
  | fallbackHostId (number : Nat)
  | advance (number : Nat)
  | writeSome (number count : Nat)
  | ioError (number : Nat)
  deriving DecidableEq, Repr

/-- A name without the white space around it, unless nothing is left. -/
def nonEmpty (name : List Char) : Option String :=
  let name := Lines.trim name
  if name.isEmpty then none else some (String.ofList name)

/-- The text of a fresh id. -/
def freshHostId (id : Uuid) : List Char := "host-".toList ++ id.toText.toList

def IdFile.read : IdFile → Option String
  | .text content => nonEmpty content
  | _ => none

/-- Written characters follow those that the file has. -/
def IdFile.append (file : IdFile) (characters : List Char) : IdFile :=
  match file with
  | .text content => .text (content ++ characters)
  | file => file

/-- No step of such a call has created the file or read a name from it. -/
def HostIdCall.isWaiting : HostIdCall → Bool
  | .writing _ | .returned _ => false
  | _ => true

section Steps
variable {Host : Type*}

namespace HostIdState

def setCall (s : HostIdState Host) (number : Nat) (call : HostIdCall) : HostIdState Host :=
  { s with calls := Function.update s.calls number call }

@[simp] theorem setCall_files (s : HostIdState Host) (number : Nat) (call : HostIdCall) :
    (s.setCall number call).files = s.files := rfl

@[simp] theorem setCall_calls (s : HostIdState Host) (number : Nat) (call : HostIdCall) :
    (s.setCall number call).calls = Function.update s.calls number call := rfl

variable [DecidableEq Host]

def setFile (s : HostIdState Host) (host : Host) (file : IdFile) : HostIdState Host :=
  { s with files := Function.update s.files host file }

@[simp] theorem setFile_files (s : HostIdState Host) (host : Host) (file : IdFile) :
    (s.setFile host file).files = Function.update s.files host file := rfl

@[simp] theorem setFile_calls (s : HostIdState Host) (host : Host) (file : IdFile) :
    (s.setFile host file).calls = s.calls := rfl

end HostIdState

variable [DecidableEq Host] (place : Nat → Host) (draw : Nat → Uuid)

/-- One step of a call, other than a write. -/
def advanceHostId (s : HostIdState Host) (number : Nat) : Option (HostIdState Host) :=
  match s.calls number with
  | .reading =>
      match (s.files (place number)).read with
      | some id => some (s.setCall number (.returned id))
      | none => some (s.setCall number .creating)
  | .creating =>
      match s.files (place number) with
      | .absent =>
          some ((s.setFile (place number) (.text [])).setCall number
            (.writing (freshHostId (draw number))))
      | _ => some (s.setCall number .rereading)
  | .rereading =>
      some (s.setCall number
        (.returned ((s.files (place number)).read.getD
          (String.ofList (freshHostId (draw number))))))
  | .idle | .writing _ | .returned _ => none

/-- A write takes some characters; the creator returns its id after the last one. -/
def writeHostId (s : HostIdState Host) (number count : Nat) : Option (HostIdState Host) :=
  match s.calls number with
  | .writing rest =>
      let written := s.setFile (place number) ((s.files (place number)).append (rest.take count))
      if count < rest.length then some (written.setCall number (.writing (rest.drop count)))
      else some (written.setCall number (.returned (String.ofList (freshHostId (draw number)))))
  | _ => none

/-- A read that fails finds no name; a call that cannot create or
write the file keeps its own id. -/
def failHostId (s : HostIdState Host) (number : Nat) : Option (HostIdState Host) :=
  match s.calls number with
  | .reading => some (s.setCall number .creating)
  | .creating | .writing _ | .rereading =>
      some (s.setCall number (.returned (String.ofList (freshHostId (draw number)))))
  | .idle | .returned _ => none

def hostIdStep (s : HostIdState Host) : HostIdAction → Option (HostIdState Host)
  | .fallbackHostId number => if s.calls number = .idle then
      some (s.setCall number .reading) else none
  | .advance number => advanceHostId place draw s number
  | .writeSome number count => writeHostId place draw s number count
  | .ioError number => failHostId draw s number

/-- At the start no process has asked for the id; a file may be left of earlier ones. -/
def hostIdMachine : Machine (HostIdState Host) HostIdAction where
  start s := ∀ number, s.calls number = .idle
  step := hostIdStep place draw

end Steps

/-- No call is writing the id file of this host. -/
def Settled {Host : Type*} (place : Nat → Host) (s : HostIdState Host) (host : Host) : Prop :=
  ∀ number rest, s.calls number = .writing rest → place number ≠ host

/-- A read that takes a name takes it from a file that nobody is still writing, and a call that lost
the creation of the file finds a name there. No call meets an input or output error. -/
def ReadsWhole {Host : Type*} (place : Nat → Host) (s : HostIdState Host) : HostIdAction → Prop
  | .advance number =>
      match s.calls number with
      | .reading => (s.files (place number)).read.isSome → Settled place s (place number)
      | .rereading => (s.files (place number)).read.isSome ∧ Settled place s (place number)
      | _ => True
  | .ioError _ => False
  | _ => True

section Texts

/-- A digit is no white space. -/
theorem digit_ne_whitespace {low : Nat} (small : low < 16) :
    Lines.isWhitespace (Hex.digit low) = false := by
  interval_cases low <;> decide

/-- A numeral has no white space. -/
theorem write_plain (width number : Nat) :
    ∀ char ∈ Hex.write width number, Lines.isWhitespace char = false := by
  induction width generalizing number with
  | zero => exact fun char member => absurd member List.not_mem_nil
  | succ width ih =>
      intro char member
      rw [Hex.write, List.mem_append, List.mem_singleton] at member
      rcases member with high | rfl
      · exact ih _ char high
      · exact digit_ne_whitespace (Nat.mod_lt number (by decide))

theorem mem_hyphenate {digits : List Char} {char : Char} (member : char ∈ Uuid.hyphenate digits) :
    char = '-' ∨ char ∈ digits := by
  simp only [Uuid.hyphenate, List.mem_append, List.mem_cons] at member
  rcases member with first | rfl | second | rfl | third | rfl | fourth | rfl | fifth
  · exact .inr (List.mem_of_mem_take first)
  · exact .inl rfl
  · exact .inr (List.mem_of_mem_drop (List.mem_of_mem_take second))
  · exact .inl rfl
  · exact .inr (List.mem_of_mem_drop (List.mem_of_mem_take third))
  · exact .inl rfl
  · exact .inr (List.mem_of_mem_drop (List.mem_of_mem_take fourth))
  · exact .inl rfl
  · exact .inr (List.mem_of_mem_drop fifth)

/-- A fresh id has no white space. -/
theorem freshHostId_plain (id : Uuid) :
    ∀ char ∈ freshHostId id, Lines.isWhitespace char = false := by
  intro char member
  rw [freshHostId, List.mem_append, Uuid.toList_toText] at member
  cases member with
  | inl word =>
      have plain : "host-".toList.all (fun char => !Lines.isWhitespace char) = true := by decide
      exact Bool.not_eq_true' _ |>.mp (List.all_eq_true.mp plain char word)
  | inr text =>
      rcases mem_hyphenate text with rfl | digit
      · decide
      · exact write_plain 32 id.toNat char digit

/-- A fresh id is read as it was written. -/
theorem nonEmpty_freshHostId (id : Uuid) :
    nonEmpty (freshHostId id) = some (String.ofList (freshHostId id)) := by
  have kept : (freshHostId id).isEmpty = false := by simp [freshHostId]
  simp only [nonEmpty, Lines.trim_of_plain (freshHostId_plain id), kept,
    Bool.false_eq_true, if_false]

/-- Two ids are drawn from two numbers. -/
theorem freshHostId_injective {first second : Uuid}
    (same : freshHostId first = freshHostId second) :
    first = second :=
  Uuid.toText_injective (String.toList_injective (List.append_cancel_left same))

end Texts

end Openheim.Memory
