import Openheim.Core.Llm.WireValidity
import Openheim.Core.RequestRepair

namespace Openheim

section Rounds
variable {reply : Message} {results rest messages : List Message}
  {calls done missing : List ToolUseBlock}
  {answered : List String}

/-- A round of a log is torn unless its results answer all of its calls. -/
theorem not_torn_round (role : reply.role = .assistant)
    (belong : ∀ result ∈ results, IsResultOf calls result)
    (ends : ∀ next ∈ rest.head?, isTool next = false) :
    ¬ Torn reply (results ++ rest) ↔ ∀ call ∈ reply.toolCalls, call.id ∈ resultIds results := by
  rw [Torn, takeWhile_results belong ends, openedCalls_of_assistant role]
  simp

/-- The calls that a torn round leaves open are missing ones. -/
theorem missing_of_torn (role : reply.role = .assistant) (split : reply.toolCalls = done ++ missing)
    (answers : List.Forall₂ Answers done results) (ends : ∀ next ∈ rest.head?, isTool next = false)
    (torn : Torn reply (results ++ rest)) : missing ≠ [] := by
  rintro rfl
  refine (not_torn_round role (isResultOf_of_answers answers) ends).mpr (fun call member => ?_) torn
  rw [split, List.append_nil] at member
  rw [resultIds_of_answers answers]
  exact List.mem_map_of_mem member

/-- Without calls there are no results. -/
theorem results_eq_nil (belong : ∀ result ∈ results, IsResultOf calls result)
    (none_asked : calls = []) :
    results = [] := by
  refine List.eq_nil_iff_forall_not_mem.mpr fun result member => ?_
  obtain ⟨_, _, _, belongs⟩ := belong result member
  simp [none_asked] at belongs

/-- A round whose calls are all answered is well-paired, also when it has no calls. -/
theorem WellPaired.round (role : reply.role = .assistant)
    (belong : ∀ result ∈ results, IsResultOf reply.toolCalls result)
    (settled : ∀ call ∈ reply.toolCalls, call.id ∈ resultIds results) (tail : WellPaired rest) :
    WellPaired (reply :: (results ++ rest)) := by
  by_cases calls : reply.toolCalls = []
  · obtain rfl := results_eq_nil belong calls
    exact .plain (by simp [role]) ((openedCalls_of_assistant role).trans calls) tail
  · exact .exchange role calls belong settled tail

/-- The repair of a log that can be repaired is well-paired, whatever scan it begins in. -/
theorem Shape.wellPaired (shape : Shape messages) (settled : missingResults calls answered = [])
    (repairable : Repairable (!calls.isEmpty) messages) :
    WellPaired (answerOpenCalls calls answered messages) := by
  induction shape generalizing calls answered with
  | nil =>
      rw [answerOpenCalls, settled]
      exact .nil
  | @user message rest role tail ih =>
      have closed : openedCalls message = [] := openedCalls_of_other (by simp [role])
      have follows := repairable.2
      rcases answerOpenCalls_cons settled message rest with
        ⟨more, scans, still, repaired⟩ | ⟨stops, repaired⟩
      · rw [repaired]
        rw [scans, Bool.true_or] at follows
        have going : calls.isEmpty = false := by simpa using (Bool.and_eq_true_iff.mp scans).1
        exact .plain (by simp [role]) closed (ih still (by rwa [going]))
      · rw [repaired, closed]
        rw [stops, closed] at follows
        exact .plain (by simp [role]) closed (ih rfl follows)
  | @round reply results rest done missing role split answers _ tail ih =>
      have ends := tail.head
      have belong := isResultOf_of_split split answers
      have opened := openedCalls_of_assistant role
      have whole := (not_torn_round role belong ends).mp
      obtain ⟨first, follows⟩ := repairable
      rcases answerOpenCalls_cons settled reply (results ++ rest) with
        ⟨more, scans, still, repaired⟩ | ⟨stops, repaired⟩
      · -- The reply is taken for a result, so nothing is put in for its calls.
        have going : calls ≠ [] := by rintro rfl; cases scans
        have untorn : ¬ Torn reply (results ++ rest) := fun torn => by
          have stops := (first torn).1
          rw [scans] at stops
          cases stops
        rw [scans, Bool.true_or, repairable_results belong] at follows
        obtain ⟨later, scanned, ids⟩ := answerOpenCalls_results going belong
        rw [repaired, scanned]
        refine .round role belong (whole untorn)
          (ih (missingResults_mono still fun id member => ?_) ?_)
        · exact (ids id).mpr (.inl member)
        · rwa [List.isEmpty_eq_false_iff.mpr going]
      · rw [stops, Bool.false_or, opened] at follows
        rw [repaired, opened]
        by_cases calls : reply.toolCalls = []
        · obtain rfl := results_eq_nil belong calls
          rw [calls] at follows ⊢
          exact .round role belong (by simp [calls]) (ih rfl follows)
        · rw [List.isEmpty_eq_false_iff.mpr calls, Bool.not_false,
            repairable_results belong] at follows
          obtain ⟨later, scanned, ids⟩ := @answerOpenCalls_results _ [] _ rest _ calls belong
          rw [scanned]
          by_cases torn : Torn reply (results ++ rest)
          · have plain := (first torn).2
            rw [dropWhile_results belong ends] at plain
            rw [repairable_of_plain plain] at follows
            rw [answerOpenCalls_of_plain plain, ← List.append_assoc]
            refine .round role (fun result member => ?_) (fun call member => ?_) (ih rfl follows)
            · rcases List.mem_append.mp member with arrived | put
              · exact belong result arrived
              · exact missingResults_belong result put
            · rw [resultIds_append, List.mem_append]
              by_cases arrived : call.id ∈ resultIds results
              · exact .inl arrived
              · refine .inr (mem_resultIds_missingResults member fun among => arrived ?_)
                simpa using (ids call.id).mp among
          · have settled : missingResults reply.toolCalls later = [] :=
              missingResults_eq_nil.mpr fun call member =>
                (ids call.id).mpr (.inr (whole torn call member))
            refine .round role belong (whole torn) (ih settled ?_)
            rwa [List.isEmpty_eq_false_iff.mpr calls]

/-- When something else than a result follows the results that arrived, a
sent round has all of them. -/
theorem answered_of_sent {start index : Nat} (role : reply.role = .assistant)
    (belong : ∀ result ∈ results, IsResultOf reply.toolCalls result)
    (user : ∀ next ∈ rest.head?, next.role = .user)
    (sent : Llm.OpenAi.exchange.AnsweredFirst Llm.OpenAi.isResult
      (Llm.OpenAi.convertFrom start index (reply :: (results ++ rest)))) :
    ∀ call ∈ reply.toolCalls, call.id ∈ resultIds results := by
  intro call member
  obtain ⟨caller, converted, _, asked⟩ :=
    Llm.OpenAi.convertMessage_calls role (List.ne_nil_of_mem member) (start ≤ index)
  obtain ⟨kinds, ids⟩ := Llm.OpenAi.convertFrom_results belong start (index + 1)
  rw [Llm.OpenAi.convertFrom, converted, Option.toList_some, List.singleton_append,
    Llm.OpenAi.convertFrom_append] at sent
  obtain ⟨answer, among, answered⟩ := sent.1 call.id (asked ▸ List.mem_map_of_mem member)
  rw [List.takeWhile_append_of_pos fun other later => (kinds other later).1] at among
  have stops : (Llm.OpenAi.convertFrom start (index + 1 + results.length) rest).takeWhile
      Llm.OpenAi.isResult = [] := by
    cases rest with
    | nil => rfl
    | cons next rest =>
      simp [Llm.OpenAi.convertFrom, Llm.OpenAi.convertMessage, user next rfl, Llm.OpenAi.isResult]
  rw [stops, List.append_nil] at among
  exact (ids call.id).mp ⟨answer, among, answered⟩

/-- A scan in which nothing is missing keeps the message that it begins with in front. -/
theorem answerOpenCalls_head (settled : missingResults calls answered = [])
    (messages : List Message) :
    (answerOpenCalls calls answered messages).head? = messages.head? := by
  cases messages with
  | nil => rw [answerOpenCalls, settled]
  | cons message rest =>
      rcases answerOpenCalls_cons settled message rest with ⟨_, _, _, repaired⟩ | ⟨_, repaired⟩
      · rw [repaired]
        rfl
      · rw [repaired]
        rfl

/-- A log whose repair one provider finds valid can be repaired. -/
theorem Shape.repairable (shape : Shape messages) (settled : missingResults calls answered = [])
    {start index : Nat} (sent : Llm.OpenAi.exchange.AnsweredFirst Llm.OpenAi.isResult
      (Llm.OpenAi.convertFrom start index (answerOpenCalls calls answered messages))) :
    Repairable (!calls.isEmpty) messages := by
  induction shape generalizing calls answered index with
  | nil => trivial
  | @user message rest role tail ih =>
      have closed : openedCalls message = [] := openedCalls_of_other (by simp [role])
      refine ⟨fun torn => absurd torn (not_torn_of_other (by simp [role])), ?_⟩
      rcases answerOpenCalls_cons settled message rest with
        ⟨more, scans, still, repaired⟩ | ⟨stops, repaired⟩
      · rw [repaired, Llm.OpenAi.convertFrom] at sent
        rw [scans, Bool.true_or, ← (Bool.and_eq_true_iff.mp scans).1]
        exact ih still sent.right
      · rw [repaired, closed, Llm.OpenAi.convertFrom] at sent
        rw [stops, closed]
        exact ih rfl sent.right
  | @round reply results rest done missing role split answers follows tail ih =>
      have ends := tail.head
      have belong := isResultOf_of_split split answers
      have opened := openedCalls_of_assistant role
      have user (torn : Torn reply (results ++ rest)) : ∀ next ∈ rest.head?, next.role = .user :=
        follows (missing_of_torn role split answers ends torn)
      have untorn := (not_torn_round role belong ends).mpr
      rcases answerOpenCalls_cons settled reply (results ++ rest) with
        ⟨more, scans, still, repaired⟩ | ⟨stops, repaired⟩
      · have going : calls ≠ [] := by rintro rfl; cases scans
        obtain ⟨later, scanned, ids⟩ := answerOpenCalls_results going belong
        rw [repaired, scanned] at sent
        have still : missingResults calls later = [] :=
          missingResults_mono still fun id member => (ids id).mpr (.inl member)
        refine ⟨fun torn => absurd torn (untorn (answered_of_sent role belong ?_ sent)), ?_⟩
        · rw [answerOpenCalls_head still]
          exact user torn
        · rw [scans, Bool.true_or, repairable_results belong, ← (Bool.and_eq_true_iff.mp scans).1]
          rw [← List.cons_append, Llm.OpenAi.convertFrom_append] at sent
          exact ih still sent.right
      · rw [repaired, opened] at sent
        rw [Repairable, stops, Bool.false_or, opened]
        by_cases calls : reply.toolCalls = []
        · obtain rfl := results_eq_nil belong calls
          rw [calls] at sent ⊢
          rw [Llm.OpenAi.convertFrom] at sent
          exact ⟨fun torn => absurd torn (untorn (by simp [calls])), ih rfl sent.right⟩
        · obtain ⟨later, scanned, ids⟩ := @answerOpenCalls_results _ [] _ rest _ calls belong
          rw [scanned] at sent
          have going := List.isEmpty_eq_false_iff.mpr calls
          rw [going, Bool.not_false, repairable_results belong, dropWhile_results belong ends]
          have remains := sent
          rw [← List.cons_append, Llm.OpenAi.convertFrom_append] at remains
          by_cases torn : Torn reply (results ++ rest)
          · -- The next message is of the user; were it taken for a result, it would stay in front.
            have plain : ∀ next ∈ rest.head?, next.toolResultBlock = none := by
              intro next first
              by_contra holds
              refine untorn (answered_of_sent role belong ?_ sent) torn
              obtain ⟨others, rfl⟩ : ∃ others, rest = next :: others :=
                List.head?_eq_some_iff.mp first
              obtain ⟨block, found⟩ := Option.ne_none_iff_exists'.mp holds
              obtain ⟨call, more_calls, asked⟩ := List.exists_cons_of_ne_nil calls
              rw [asked, answerOpenCalls, found]
              exact user torn
            refine ⟨fun _ => ⟨rfl, plain⟩, (repairable_of_plain plain true).mpr ?_⟩
            rw [answerOpenCalls_of_plain plain, Llm.OpenAi.convertFrom_append] at remains
            exact ih rfl remains.right.right
          · refine ⟨fun other => absurd other torn, ?_⟩
            have whole := (not_torn_round role belong ends).mp torn
            have settled := missingResults_eq_nil.mpr fun call member =>
              (ids call.id).mpr (.inr (whole call member))
            have tail_repairable := ih settled remains.right
            rwa [going] at tail_repairable

end Rounds

/-- What one provider finds valid of an untrimmed request, and what every provider finds valid of
all of them, is the same condition on the history. -/
theorem requests_valid_iff {json : SerdeJson} {history further : List Message}
    (stored : Stored json history) (users : ∀ message ∈ further, message.role = .user) :
    (∀ promptBuilder fitter,
      Llm.ValidRequest json (prepareRequest (history ++ further) promptBuilder fitter).messages) ↔
    Repairable false (history ++ further) := by
  have shape : Shape (history ++ further) := by
    refine stored.shape.append (fun next first => users next (List.mem_of_mem_head? first)) ?_
    exact .of_users users
  constructor
  · intro valid
    have sent := (valid none ⟨none, 0, 0, none⟩).openAi false
    exact shape.repairable rfl sent.1
  · intro repairable promptBuilder fitter
    have paired : WellPaired (answerMissingToolResults (history ++ further)) :=
      shape.wellPaired rfl repairable
    exact .of_wellPaired json (paired.prepareRequest promptBuilder fitter)

/-- The model asks for one call. -/
def callReply : Reply :=
  ⟨⟨⟨.assistant, [.toolUse "a" "list_dir" "{}" none]⟩, some .toolCalls, none⟩, rfl⟩

/-- A turn that was cut off before its only call finished. -/
def tornHistory : List Message := [.ofUser "list", callReply.message]

theorem tornHistory_stored : Stored AgentRun.sampleJson tornHistory := by
  have executed : (agentLoop AgentRun.sampleJson [.ofUser "list"]).exec
    (.start AgentRun.sampleConfig none 0 [.ofUser "list"] false) [.proceed,
      .reply (.ok callReply)] = some _ := rfl
  have started : (agentLoop AgentRun.sampleJson [.ofUser "list"]).start
      (.start AgentRun.sampleConfig none 0 [.ofUser "list"] false) :=
        ⟨AgentRun.sampleConfig, none, 0, false, rfl⟩
  exact .turn .empty rfl (Machine.reachable_of_exec started executed) (List.nil_prefix)
    (List.prefix_refl _)

/-- A user who writes again after the torn turn gets a valid request. -/
theorem requests_sample : Llm.ValidRequest AgentRun.sampleJson
    (prepareRequest (tornHistory ++ [.ofUser "again"]) none ⟨none, 0, defaultBytesPerToken,
          none⟩).messages := by
  refine (requests_valid_iff tornHistory_stored (by simp [Message.ofUser])).mpr ?_ none _
  simp [tornHistory, callReply, Repairable, Message.ofUser, Message.toolResultBlock,
    ContentBlock.asToolResult, openedCalls, Torn, List.dropWhile, isTool]

/-- A result block in the next user message counts as the answer, but no provider is sent it. -/
theorem request_invalid : Stored AgentRun.sampleJson tornHistory ∧
    (callReply.message.toolCalls.map ToolUseBlock.id).Nodup ∧
    ¬ Llm.ValidRequest AgentRun.sampleJson (prepareRequest
      (tornHistory ++ [⟨.user, [.toolResult "a" "list_dir" "" false]⟩]) none ⟨none, 0, 0,
          none⟩).messages := by
  refine ⟨tornHistory_stored, by decide, fun valid => ?_⟩
  have sent := (valid.openAi false).1.2.1 "a" (by decide)
  revert sent
  decide

end Openheim
