import Openheim.Core.AgentHistory

namespace Openheim

/-- The logs that any number of turns leave behind: a turn adds its user message and runs the loop,
and it may be cut off after any message. -/
inductive Stored (json : SerdeJson) : List Message → Prop where
  | empty : Stored json []
  | turn {history log : List Message} {user : Message} {run : AgentRun} :
      Stored json history → user.role = .user →
      (agentLoop json (history ++ [user])).Reachable run → history <+: log → log <+: run.messages →
        Stored json log

/-- A log is made of user messages and of rounds; a round whose results are incomplete is last, or a
user message follows it. -/
inductive Shape : List Message → Prop where
  | nil : Shape []
  | user {message : Message} {rest : List Message} :
      message.role = .user → Shape rest → Shape (message :: rest)
  | round {reply : Message} {results rest : List Message} {done missing : List ToolUseBlock} :
      reply.role = .assistant → reply.toolCalls = done ++ missing →
      List.Forall₂ Answers done results → (missing ≠ [] → ∀ next ∈ rest.head?, next.role = .user) →
        Shape rest → Shape (reply :: (results ++ rest))

section Logs
variable {messages rest : List Message}

/-- What a user message begins may follow any log. -/
theorem Shape.append (shape : Shape messages) (begins : ∀ next ∈ rest.head?, next.role = .user)
    (tail : Shape rest) : Shape (messages ++ rest) := by
  induction shape with
  | nil => exact tail
  | user role _ ih => exact .user role ih
  | @round reply results after done missing role calls answers follows _ ih =>
      rw [List.cons_append, List.append_assoc]
      refine .round role calls answers (fun torn next first => ?_) ih
      cases after with
      | nil => exact begins next first
      | cons other after => exact follows torn next first

theorem Shape.of_users (users : ∀ message ∈ messages, message.role = .user) : Shape messages := by
  induction messages with
  | nil => exact .nil
  | cons message rest ih =>
      exact .user (users message List.mem_cons_self) (ih fun other member =>
        users other (List.mem_cons_of_mem _ member))

/-- A prefix of complete rounds may end inside a round. -/
theorem Shape.of_rounds {rounds : List Round}
    (complete : ∀ round ∈ rounds, round.reply.role = .assistant ∧
    List.Forall₂ Answers round.reply.toolCalls round.results)
    (cut : messages <+: rounds.flatMap Round.messages) : Shape messages := by
  induction rounds generalizing messages with
  | nil =>
      rw [List.prefix_nil.mp cut]
      exact .nil
  | cons round rounds ih =>
      obtain ⟨role, answers⟩ := complete round List.mem_cons_self
      have later (log : List Message) : log <+: rounds.flatMap Round.messages → Shape log :=
        ih fun other member => complete other (List.mem_cons_of_mem _ member)
      rw [List.flatMap_cons, Round.messages, List.cons_append] at cut
      rcases List.prefix_cons_iff.mp cut with rfl | ⟨tail, rfl, within⟩
      · exact .nil
      · rcases List.prefix_or_prefix_of_prefix within (List.prefix_append _ _) with inside | beyond
        · have taken : round.results.take tail.length = tail :=
            (List.prefix_iff_eq_take.mp inside).symm
          have split := (List.take_append_drop tail.length round.reply.toolCalls).symm
          have part := List.forall₂_take tail.length answers
          rw [taken] at part
          simpa using Shape.round role split part (by simp) .nil
        · obtain ⟨after, rfl⟩ := beyond
          rw [List.prefix_append_right_inj] at within
          exact .round role (List.append_nil _).symm answers (fun torn => absurd rfl torn)
            (later after within)

/-- Whenever the loop is seen, its messages begin complete rounds. -/
theorem AgentRun.HistoryInvariant.rounds {initial : List Message} {run : AgentRun}
    (invariant : run.HistoryInvariant initial) :
    ∃ rounds : List Round, (∀ round ∈ rounds, round.reply.role = .assistant ∧
      List.Forall₂ Answers round.reply.toolCalls round.results) ∧
      run.messages <+: initial ++ rounds.flatMap Round.messages := by
  cases inProgress : run.phase.openRound with
  | none =>
      obtain ⟨rounds, holds⟩ := invariant.closed inProgress
      refine ⟨rounds, fun round member => ⟨(holds.wellFormed round member).assistant,
        (holds.wellFormed round member).answered⟩, ⟨[], ?_⟩⟩
      rw [List.append_nil, holds.messages, List.append_nil]
  | some open_round =>
      obtain ⟨_, rounds, _, _, holds⟩ := invariant.opened inProgress
      let answer (call : ToolUseBlock) : Message :=
        .toolResult call.id call.name cancelledToolResult true
      let last : Round := ⟨open_round.1.message, open_round.1.message.toolCalls.map answer, []⟩
      refine ⟨rounds ++ [last], fun round member => ?_, ?_⟩
      · rcases List.mem_append.mp member with old | new
        · exact ⟨(holds.wellFormed round old).assistant, (holds.wellFormed round old).answered⟩
        · rw [List.mem_singleton.mp new]
          refine ⟨open_round.1.fromAssistant, ?_⟩
          rw [List.forall₂_map_right_iff, List.forall₂_same]
          exact fun call _ => ⟨_, _, rfl⟩
      · rw [holds.messages, List.flatMap_append, List.prefix_append_right_inj,
          List.prefix_append_right_inj]
        exact ⟨last.results, by simp [last, Round.messages]⟩

/-- Every stored log has the shape. -/
theorem Stored.shape {json : SerdeJson} (stored : Stored json messages) : Shape messages := by
  induction stored with
  | empty => exact .nil
  | @turn history log user run _ role reached begins cut ih =>
      obtain ⟨rounds, complete, within⟩ := (AgentRun.HistoryInvariant.of_reachable reached).rounds
      obtain ⟨tail, rfl⟩ := begins
      have inside := cut.trans within
      rw [List.append_assoc, List.prefix_append_right_inj, List.singleton_append] at inside
      rcases List.prefix_cons_iff.mp inside with rfl | ⟨after, rfl, rest⟩
      · rw [List.append_nil]
        exact ih
      · refine ih.append ?_ (.user role (.of_rounds complete rest))
        intro next first
        cases first
        exact role

end Logs

end Openheim
