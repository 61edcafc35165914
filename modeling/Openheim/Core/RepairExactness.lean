import Openheim.Core.RequestRepair
import Mathlib.Data.List.TakeWhile

/-
This file shows what `answer_missing_tool_results` in `src/core/agent.rs` adds to a history, and
where it adds it.
-/

namespace Openheim

def hasResult (message : Message) : Bool := message.toolResultBlock.isSome

/-- No message is torn, with `tail` after them. -/
def Whole (tail : List Message) : List Message → Prop
  | [] => True
  | message :: rest => ¬ Torn message (rest ++ tail) ∧ Whole tail rest

/-- Every call of every assistant message has a result among the tool messages right after it. -/
def AllAnswered (messages : List Message) : Prop := Whole [] messages

/-- The results put in before an index stand among the tool messages right after an assistant
message. They belong to calls of it that no message there answers, in the order of the calls. -/
def FillsRun (messages : List Message) (index : Nat) (missing : List Message) : Prop :=
  ∃ (before run : List Message) (message : Message) (unanswered : List ToolUseBlock),
    messages.take index = before ++ message :: run ∧ message.role = .assistant ∧
    (∀ result ∈ run, isTool result) ∧ unanswered.Sublist message.toolCalls ∧
    (∀ call ∈ unanswered, call.id ∉ resultIds ((run ++ messages.drop index).takeWhile isTool)) ∧
    missing = unanswered.map fun call => .toolResult call.id call.name missingToolResult true

/-- The messages with a result that follow `message` are read as its tool messages would be: they
answer what those answer, they do not go past those if a call has no answer there, and no message
among them is torn. -/
structure ReadsRun (message : Message) (rest : List Message) : Prop where
  answers : ∀ call ∈ openedCalls message, call.id ∈ resultIds (rest.takeWhile isTool) →
    call.id ∈ resultIds (rest.takeWhile hasResult)
  ends : Torn message rest → rest.takeWhile hasResult <+: rest.takeWhile isTool
  skipped : Whole (rest.dropWhile hasResult) (rest.takeWhile hasResult)

/-- Every run that the scan takes in is read as its tool messages would be. -/
def RunsRead : List Message → Prop
  | [] => True
  | message :: rest =>
      if (openedCalls message).isEmpty then RunsRead rest
      else ReadsRun message rest ∧ RunsRead (rest.dropWhile hasResult)
termination_by messages => messages.length
decreasing_by
  · simp
  · exact Nat.lt_succ_of_le (List.dropWhile_suffix hasResult).length_le

section Tails
variable {tail first second : List Message}

/-- A list is whole when its parts are, each before what follows it. -/
theorem whole_append :
    Whole tail (first ++ second) ↔ Whole (second ++ tail) first ∧ Whole tail second := by
  induction first with
  | nil => simp [Whole]
  | cons message first ih => rw [List.cons_append, Whole, Whole, ih, List.append_assoc, and_assoc]

/-- Tool messages make no calls. -/
theorem whole_of_tools (tools : ∀ result ∈ first, isTool result) : Whole tail first := by
  induction first with
  | nil => trivial
  | cons message first ih =>
      have role : message.role = .tool := by simpa [isTool] using tools message List.mem_cons_self
      exact ⟨not_torn_of_other (by simp [role]), ih fun result member =>
        tools result (List.mem_cons_of_mem _ member)⟩

end Tails

/-- The scan goes over a history message by message, or over a message with
calls and its results at once. -/
theorem scan_induction {motive : List Message → Prop} (nil : motive [])
    (plain : ∀ message rest, openedCalls message = [] → motive rest → motive (message :: rest))
    (round : ∀ message run rest, openedCalls message ≠ [] → (∀ result ∈ run, hasResult result) →
      (∀ next ∈ rest.head?, hasResult next = false) → motive rest →
        motive (message :: (run ++ rest)))
    (messages : List Message) : motive messages := by
  induction messages using RunsRead.induct with
  | case1 => exact nil
  | case2 message rest closed ih => exact plain message rest (by simpa using closed) ih
  | case3 message rest opened ih =>
      rw [← List.takeWhile_append_dropWhile (p := hasResult) (l := rest)]
      refine round message _ _ (by simpa using opened) (fun result => List.mem_takeWhile_imp)
        (fun next first => ?_) ih
      have ends := List.head?_dropWhile_not hasResult rest
      rw [first] at ends
      exact ends

section Rounds
variable {message : Message} {run rest : List Message} (opened : openedCalls message ≠ [])
  (results : ∀ result ∈ run, hasResult result) (ends : ∀ next ∈ rest.head?, hasResult next = false)
include results ends

/-- The results behind a message end where its run ends. -/
theorem takeWhile_round : (run ++ rest).takeWhile hasResult = run := by
  rw [List.takeWhile_append_of_pos results]
  cases rest with
  | nil => simp
  | cons next rest => simp [ends next rfl]

/-- Behind the results of a message comes the rest. -/
theorem dropWhile_round : (run ++ rest).dropWhile hasResult = rest := by
  rw [List.dropWhile_append_of_pos results]
  cases rest with
  | nil => rfl
  | cons next rest => simp [ends next rfl]

include opened

/-- Every run is read back when the first one is, and those behind it. -/
theorem runsRead_round :
    RunsRead (message :: (run ++ rest)) ↔ ReadsRun message (run ++ rest) ∧ RunsRead rest := by
  rw [RunsRead, if_neg (by simpa using opened), dropWhile_round results ends]

end Rounds

section Copies
variable {front rest : List Message} {copied : Nat}

end Copies

section Runs
variable {front run rest : List Message} {message : Message}

end Runs

section Reading
variable {message : Message} {run rest : List Message}
  (results : ∀ result ∈ run, hasResult result) (ends : ∀ next ∈ rest.head?, hasResult next = false)
include results ends

end Reading

/-- Where just the tool messages hold results, every run is read as it is. -/
theorem runsRead_of_marked (messages : List Message)
    (marked : ∀ message ∈ messages, hasResult message = isTool message) : RunsRead messages := by
  induction messages using scan_induction with
  | nil => simp [RunsRead]
  | plain message rest closed ih =>
      rw [RunsRead, if_pos (by simp [closed])]
      exact ih fun other member => marked other (List.mem_cons_of_mem _ member)
  | round message run rest opened results ends ih =>
      have within (other : Message) (member : other ∈ run ++ rest) :=
        marked other (List.mem_cons_of_mem _ member)
      have tools : ∀ result ∈ run, isTool result := fun result member =>
        within result (List.mem_append_left _ member) ▸ results result member
      have after : ∀ next ∈ rest.head?, isTool next = false := fun next first =>
        within next (List.mem_append_right _ (List.mem_of_mem_head? first)) ▸ ends next first
      have same : (run ++ rest).takeWhile isTool = run := by
        rw [List.takeWhile_append_of_pos tools]
        cases rest with
        | nil => simp
        | cons next rest => simp [after next rfl]
      refine (runsRead_round opened results ends).mpr ⟨⟨fun _ _ found => ?_, fun _ => ?_, ?_⟩,
          ih fun other member =>
        within other (List.mem_append_right _ member)⟩
      · rwa [takeWhile_round results ends, ← same]
      · rw [takeWhile_round results ends]
        exact same.symm ▸ List.prefix_rfl
      · rw [takeWhile_round results ends]
        exact whole_of_tools tools

/-- A call without a result is missing in the history: results go only
into a history that has one. -/
theorem FillsRun.torn {messages missing : List Message} {index : Nat}
    (filled : FillsRun messages index missing)
    (some_missing : missing ≠ []) : ¬ AllAnswered messages := by
  obtain ⟨before, run, message, unanswered, taken, role, _, among, silent, rfl⟩ := filled
  obtain ⟨call, member⟩ := List.exists_mem_of_ne_nil unanswered fun empty =>
    some_missing (by simp [empty])
  have split : messages = before ++ message :: (run ++ messages.drop index) := by
    rw [← List.cons_append, ← List.append_assoc, ← taken, List.take_append_drop]
  intro whole
  rw [split, AllAnswered, whole_append] at whole
  refine whole.2.1 ⟨call, ?_, ?_⟩
  · rw [openedCalls_of_assistant role]
    exact among.subset member
  · rw [List.append_nil]
    exact silent call member

end Openheim
