import Openheim.Core.StoredHistory
import Openheim.Core.WellPaired

namespace Openheim

def isTool (message : Message) : Bool := message.role = .tool

/-- A message is torn when one of its calls has no result among the tool messages right after it. -/
def Torn (message : Message) (rest : List Message) : Prop :=
  ∃ call ∈ openedCalls message, call.id ∉ resultIds (rest.takeWhile isTool)

/-- Only a reply can be torn. -/
theorem not_torn_of_other {message : Message} {rest : List Message}
    (other : message.role ≠ .assistant) :
    ¬ Torn message rest := by
  simp [Torn, openedCalls_of_other other]

/-- A torn message holds no result itself while results are scanned, and the message after its tool
messages holds none. The scan goes on from a message with calls over every message with a result,
whatever its role. -/
def Repairable : Bool → List Message → Prop
  | _, [] => True
  | scanning, message :: rest =>
      (Torn message rest → (scanning && message.toolResultBlock.isSome) = false ∧
        ∀ next ∈ (rest.dropWhile isTool).head?, next.toolResultBlock = none) ∧
      Repairable ((scanning && message.toolResultBlock.isSome) ||
        !(openedCalls message).isEmpty) rest

section Results
variable {calls done : List ToolUseBlock} {answered more : List String}
  {results rest : List Message}
  {message : Message}

/-- Nothing is missing when every call was answered. -/
theorem missingResults_eq_nil : missingResults calls answered = [] ↔
    ∀ call ∈ calls, call.id ∈ answered := by
  rw [missingResults, List.map_eq_nil_iff, List.filter_eq_nil_iff]
  simp

/-- What was settled stays so when more is answered. -/
theorem missingResults_mono (settled : missingResults calls answered = [])
    (grows : answered ⊆ more) :
    missingResults calls more = [] :=
  missingResults_eq_nil.mpr fun call member => grows (missingResults_eq_nil.mp settled call member)

/-- A missing result belongs to its call. -/
theorem missingResults_belong : ∀ result ∈ missingResults calls answered,
    IsResultOf calls result := by
  intro result member
  obtain ⟨call, among, rfl⟩ := List.mem_map.mp member
  exact ⟨rfl, _, rfl, List.mem_map.mpr ⟨call, (List.mem_filter.mp among).1, rfl⟩⟩

/-- A call without an answer gets one. -/
theorem mem_resultIds_missingResults {call : ToolUseBlock} (asked : call ∈ calls)
    (open_call : call.id ∉ answered) :
    call.id ∈ resultIds (missingResults calls answered) := by
  have among : call ∈ calls.filter fun call => call.id ∉ answered :=
    List.mem_filter.mpr ⟨asked, by simpa⟩
  exact mem_resultIds.mpr ⟨_, List.mem_map.mpr ⟨call, among, rfl⟩, _, rfl, rfl⟩

/-- A result of some calls is one of more calls. -/
theorem IsResultOf.mono (result : IsResultOf done message) (grows : done ⊆ calls) :
    IsResultOf calls message := by
  obtain ⟨role, block, found, belongs⟩ := result
  exact ⟨role, block, found, List.map_subset _ grows belongs⟩

/-- The ids of two lists of messages follow each other. -/
theorem resultIds_append (first second : List Message) :
    resultIds (first ++ second) = resultIds first ++ resultIds second := by
  simp [resultIds]

/-- Answers are results of their calls. -/
theorem isResultOf_of_answers (answers : List.Forall₂ Answers done results) :
    ∀ result ∈ results, IsResultOf done result := by
  induction answers with
  | nil => simp
  | @cons call result done results answer _ ih =>
      intro other member
      rcases List.mem_cons.mp member with rfl | later
      · obtain ⟨content, isError, rfl⟩ := answer
        exact ⟨rfl, _, rfl, List.mem_cons_self⟩
      · exact (ih other later).mono (List.subset_cons_self _ _)

/-- The answers of the first calls are results of all of them. -/
theorem isResultOf_of_split {missing : List ToolUseBlock} (split : calls = done ++ missing)
    (answers : List.Forall₂ Answers done results) :
    ∀ result ∈ results, IsResultOf calls result := fun result member =>
  (isResultOf_of_answers answers result member).mono (split ▸ List.subset_append_left _ _)

/-- Answers carry the ids of their calls. -/
theorem resultIds_of_answers (answers : List.Forall₂ Answers done results) :
    resultIds results = done.map ToolUseBlock.id := by
  induction answers with
  | nil => rfl
  | cons answer _ ih =>
      obtain ⟨content, isError, rfl⟩ := answer
      rw [List.map_cons, ← ih]
      rfl

/-- No log and no part of one begins with a tool message. -/
theorem Shape.head (shape : Shape rest) : ∀ next ∈ rest.head?, isTool next = false := by
  intro next first
  cases shape with
  | nil => cases first
  | user role =>
      cases first
      simp [isTool, role]
  | round role =>
      cases first
      simp [isTool, role]

/-- The results behind a message end before the next message. -/
theorem takeWhile_results (belong : ∀ result ∈ results, IsResultOf calls result)
    (ends : ∀ next ∈ rest.head?, isTool next = false) :
    (results ++ rest).takeWhile isTool = results := by
  rw [List.takeWhile_append_of_pos fun result member => by simp [isTool, (belong result member).1]]
  cases rest with
  | nil => simp
  | cons next rest => simp [ends next rfl]

/-- Behind the results comes the next message. -/
theorem dropWhile_results (belong : ∀ result ∈ results, IsResultOf calls result)
    (ends : ∀ next ∈ rest.head?, isTool next = false) :
    (results ++ rest).dropWhile isTool = rest := by
  rw [List.dropWhile_append_of_pos fun result member => by simp [isTool, (belong result member).1]]
  cases rest with
  | nil => rfl
  | cons next rest => simp [ends next rfl]

end Results

section Scan
variable {calls : List ToolUseBlock} {answered : List String} {message : Message}
  {results rest : List Message}

/-- A scan in which nothing is missing takes in one more message, or it ends
there and nothing is put in. -/
theorem answerOpenCalls_cons (settled : missingResults calls answered = []) (message : Message)
    (rest : List Message) :
    (∃ more, (!calls.isEmpty && message.toolResultBlock.isSome) = true ∧
        missingResults calls more = [] ∧
      answerOpenCalls calls answered (message :: rest) =
        message :: answerOpenCalls calls more rest) ∨
    ((!calls.isEmpty && message.toolResultBlock.isSome) = false ∧
      answerOpenCalls calls answered (message :: rest) =
        message :: answerOpenCalls (openedCalls message) [] rest) := by
  cases calls with
  | nil => exact .inr ⟨rfl, rfl⟩
  | cons call calls =>
      cases found : message.toolResultBlock with
      | none =>
        exact .inr ⟨rfl, by rw [answerOpenCalls, found]; simp only [settled, List.nil_append]⟩
      | some result =>
          exact .inl ⟨result.toolCallId :: answered, rfl,
            missingResults_mono settled (List.subset_cons_self _ _),
            by rw [answerOpenCalls, found]⟩

/-- What is missing is put in before a message without a result. -/
theorem answerOpenCalls_of_plain (plain : ∀ next ∈ rest.head?, next.toolResultBlock = none) :
    answerOpenCalls calls answered rest =
      missingResults calls answered ++ answerOpenCalls [] [] rest := by
  cases rest with
  | nil =>
      rw [answerOpenCalls, answerOpenCalls]
      exact (List.append_nil _).symm
  | cons next rest =>
      cases calls with
      | nil => rfl
      | cons call calls => simp only [answerOpenCalls, plain next rfl]

/-- Results are taken in one after the other. -/
theorem answerOpenCalls_results {belonging : List ToolUseBlock} (opened : calls ≠ [])
    (belong : ∀ result ∈ results, IsResultOf belonging result) :
    ∃ more, answerOpenCalls calls answered (results ++ rest) =
      results ++ answerOpenCalls calls more rest ∧
      ∀ id, id ∈ more ↔ id ∈ answered ∨ id ∈ resultIds results := by
  induction results generalizing answered with
  | nil => exact ⟨answered, rfl, by simp [resultIds]⟩
  | cons result results ih =>
      obtain ⟨_, block, found, _⟩ := belong result List.mem_cons_self
      obtain ⟨more, scanned, ids⟩ := @ih (block.toolCallId :: answered) fun other member =>
        belong other (List.mem_cons_of_mem _ member)
      refine ⟨more, ?_, fun id => ?_⟩
      · obtain ⟨call, others, rfl⟩ := List.exists_cons_of_ne_nil opened
        rw [List.cons_append, answerOpenCalls, found]
        simp only [scanned, List.cons_append]
      · rw [ids id]
        simp [resultIds, found, or_assoc, or_left_comm]

/-- Results keep the scan going. -/
theorem repairable_results {belonging : List ToolUseBlock}
    (belong : ∀ result ∈ results, IsResultOf belonging result) :
    Repairable true (results ++ rest) ↔ Repairable true rest := by
  induction results with
  | nil => rfl
  | cons result results ih =>
      obtain ⟨role, block, found, _⟩ := belong result List.mem_cons_self
      have whole : ¬ Torn result (results ++ rest) := not_torn_of_other (by simp [role])
      rw [List.cons_append, Repairable, found]
      simpa [whole] using ih fun other member => belong other (List.mem_cons_of_mem _ member)

/-- A message without a result ends the scan. -/
theorem repairable_of_plain (plain : ∀ next ∈ rest.head?, next.toolResultBlock = none)
    (scanning : Bool) :
    Repairable scanning rest ↔ Repairable false rest := by
  cases rest with
  | nil => rfl
  | cons next rest =>
      rw [Repairable, Repairable, plain next rfl]
      simp

end Scan

end Openheim
