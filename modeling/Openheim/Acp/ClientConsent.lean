import Openheim.Acp.UpdateOrder

/-
What a turn is allowed comes from its client: each answer is one to a question that was sent, and a
file is asked for only when the client has offered it.
-/

namespace Openheim.Acp
open Openheim.Tools

section Questions

def ServerMessage.asks (number : Nat) : ServerMessage → Bool
  | .request other _ => other = number
  | .response _ _ | .update _ _ => false

/-- The requests of a number that were sent. -/
def asksOf (number : Nat) (wire : List Sent) : List Sent :=
  wire.filter fun sent => sent.message.asks number

theorem asksOf_append (number : Nat) (first second : List Sent) :
    asksOf number (first ++ second) = asksOf number first ++ asksOf number second :=
  List.filter_append ..

/-- Messages that are no requests ask for nothing. -/
theorem asksOf_told {wire more : List Sent} (told : ∀ sent ∈ more, sent.message.tells = true)
    (number : Nat) :
    asksOf number (wire ++ more) = asksOf number wire := by
  have none : asksOf number more = [] := by
    refine List.filter_eq_nil_iff.mpr fun sent among => ?_
    have tells := told sent among
    cases message : sent.message with
    | response | update => exact Bool.false_ne_true
    | request =>
        rw [message] at tells
        cases tells
  rw [asksOf_append, none, List.append_nil]

end Questions

section Steps
variable {served : Served} {c d : AcpConnection}

/-- What a step does with the questions of the turns. -/
inductive QuestionMove (served : Served) (c d : AcpConnection) : Prop where
  | leave (questions : d.questions = c.questions) (asked : d.asked = c.asked)
      (wire : ∀ number, asksOf number d.wire = asksOf number c.wire)
  | ask (turn : Nat) (task : PromptTask) (question : Question) (found : c.turns turn = some task)
      (allowed : c.capabilities.allow question = true) (asked : d.asked = c.asked + 1)
      (questions : d.questions = Function.update c.questions c.asked
        (some ⟨turn, question, .waiting⟩))
      (wire : d.wire = c.wire ++
        [⟨some turn, .request c.asked (question.toRequest served task.sessionId)⟩])
  | settle (number turn : Nat) (question : Question) (state : QuestionState)
      (waits : c.questions number = some ⟨turn, question, .waiting⟩)
      (settled : state = .dropped ∨ ∃ answer, state = .answered answer ∧
        .response number answer ∈ c.arrived)
      (questions : d.questions = Function.update c.questions number (some ⟨turn, question, state⟩))
      (asked : d.asked = c.asked) (wire : d.wire = c.wire)

/-- What the event loop has still to send are no requests. -/
def AcpConnection.Tells (c : AcpConnection) : Prop := ∀ message ∈ c.unsent, message.tells = true

/-- A reply tells its client of something in each message. -/
theorem tells_kept (before : c.Tells) (move : AcpMove served c d) : d.Tells := by
  cases move with
  | arrive | ignore | answer | event | ask | ends | drop => exact before
  | cancel | call | cancelled | sendResponse => rintro _ ⟨⟩
  | spawn idle first => exact before
  | replyAtOnce capabilities result idle first known => exact List.forall_mem_singleton.mpr rfl
  | @returns id call result updates answer waits finished =>
      refine List.forall_mem_append.mpr ⟨fun message among => ?_, List.forall_mem_singleton.mpr rfl⟩
      obtain nothing | ⟨sessionId, cwd, loaded, -, shown⟩ := finish_updates finished
      · have none : updates = [] := nothing
        rw [none] at among
        cases among
      · have all : updates = _ := shown
        rw [all] at among
        obtain ⟨_, -, same⟩ := List.mem_map.mp among
        rw [← same]
        rfl
  | @sendUpdate id update updates result replying =>
      have all : ∀ message ∈ update :: Replied.messages ⟨id, updates, result⟩,
          message.tells = true := by
        have unsent := before
        rw [AcpConnection.Tells, AcpConnection.unsent, replying] at unsent
        exact unsent
      exact fun message among => all message (List.mem_cons_of_mem _ among)

/-- A step asks one question, settles one, or leaves all of them. -/
theorem question_moves (tells : c.Tells) (traced : c.Traced served) (move : AcpMove served c d) :
    QuestionMove served c d := by
  cases move with
  | arrive | ignore | cancel | replyAtOnce | call | spawn | returns | cancelled =>
    exact .leave rfl rfl fun _ => rfl
  | @answer number turn answer question rest idle first waits =>
      refine .settle number turn question (.answered answer) waits (.inr ⟨answer, rfl, ?_⟩)
        rfl rfl rfl
      exact traced.inbox _ (first ▸ List.mem_cons_self)
  | @sendUpdate id update updates result replying =>
      refine .leave rfl rfl (asksOf_told (List.forall_mem_singleton.mpr (tells update ?_)))
      rw [AcpConnection.unsent, replying]
      exact List.mem_cons_self
  | sendResponse replying => exact .leave rfl rfl (asksOf_told (List.forall_mem_singleton.mpr rfl))
  | @event turn task blocks event found runs converted =>
      refine .leave rfl rfl (asksOf_told fun sent among => ?_)
      rw [event_messages] at among
      obtain ⟨message, shown, rfl⟩ := List.mem_map.mp among
      obtain ⟨_, -, rfl⟩ := List.mem_map.mp shown
      rfl
  | @ask turn task blocks question found runs converted allowed =>
      exact .ask turn task question found allowed rfl rfl rfl
  | ends result found runs => exact .leave rfl rfl (asksOf_told (List.forall_mem_singleton.mpr rfl))
  | @drop number turn question waits =>
    exact .settle number turn question .dropped waits (.inl rfl) rfl rfl rfl

/-- A turn stays in its session. -/
theorem session_kept (ordered : c.Ordered served) (move : AcpMove served c d) {turn : Nat}
    {task : PromptTask}
    (found : c.turns turn = some task) :
    ∃ after, d.turns turn = some after ∧ after.sessionId = task.sessionId := by
  have updated {other : Nat} {its after : PromptTask} (has : c.turns other = some its)
      (same : after.sessionId = its.sessionId) :
      ∃ later, Function.update c.turns other (some after) turn = some later ∧
          later.sessionId = task.sessionId := by
    by_cases own : turn = other
    · subst own
      rw [has] at found
      cases found
      exact ⟨after, Function.update_self .., same⟩
    · exact ⟨task, (Function.update_of_ne own ..).trans found, rfl⟩
  cases move with
  | spawn =>
      have old : turn ≠ c.spawned := by
        rintro rfl
        rw [ordered.free _ (Nat.le_refl _)] at found
        cases found
      exact ⟨task, (Function.update_of_ne old ..).trans found, rfl⟩
  | event event has runs converted => exact updated has rfl
  | ends result has runs => exact updated has rfl
  | arrive | ignore | cancel | answer | replyAtOnce | call | returns | cancelled | sendUpdate
  | sendResponse | ask | drop =>
      exact ⟨task, found, rfl⟩

/-- Nobody needs to offer a permission; a file only the client can. -/
def AcpConnection.Offered (c : AcpConnection) (question : Question) : Prop :=
  ClientCapabilities.allow ⟨false, false⟩ question = true ∨ ∃ id version capabilities,
    .request id (.initializeRequest version capabilities) ∈ c.arrived ∧
      capabilities.allow question = true

/-- A question with the one request that it was sent in. -/
def AcpConnection.SentOnce (served : Served) (c : AcpConnection) (number : Nat)
    (asked : Asked) : Prop :=
  ∃ task, c.turns asked.turn = some task ∧
    asksOf number c.wire =
      [⟨some asked.turn, .request number (asked.question.toRequest served task.sessionId)⟩]

/-- Each question was sent once, with what the client offers, and each
answer has come from the client. -/
structure AcpConnection.Consented (served : Served) (c : AcpConnection) : Prop where
  known : c.capabilities = ⟨false, false⟩ ∨
    ∃ id version, .request id (.initializeRequest version c.capabilities) ∈ c.arrived
  fresh : ∀ number, c.asked ≤ number → c.questions number = none
  unasked : ∀ number, c.questions number = none → asksOf number c.wire = []
  sent : ∀ number asked, c.questions number = some asked → c.SentOnce served number asked
  answered : ∀ number asked answer, c.questions number = some asked →
    asked.state = .answered answer → .response number answer ∈ c.arrived
  offered : ∀ number asked, c.questions number = some asked → c.Offered asked.question

/-- No message of the client is forgotten. -/
theorem arrived_kept (move : AcpMove served c d) {message : ClientMessage}
    (among : message ∈ c.arrived) :
    message ∈ d.arrived := by
  cases move with
  | arrive => exact List.mem_append_left _ among
  | ignore | cancel | answer | replyAtOnce | call | spawn | returns | cancelled | sendUpdate
  | sendResponse | event | ask |
      ends | drop => exact among

/-- Only the client changes what it offers. -/
theorem capabilities_kept (traced : c.Traced served) (move : AcpMove served c d) :
    d.capabilities = c.capabilities ∨
      ∃ id version, .request id (.initializeRequest version d.capabilities) ∈ c.arrived := by
  cases move with
  | @replyAtOnce id request rest capabilities result idle first known =>
      obtain same | ⟨version, rfl⟩ := known
      · exact .inl same
      · exact .inr ⟨id, version, traced.inbox _ (first ▸ List.mem_cons_self)⟩
  | arrive | ignore | cancel | answer | call | spawn | returns | cancelled | sendUpdate
  | sendResponse | event | ask |
      ends | drop => exact .inl rfl

/-- What is offered stays offered. -/
theorem offered_kept (move : AcpMove served c d) {question : Question}
    (offered : c.Offered question) :
    d.Offered question := by
  obtain free | ⟨id, version, capabilities, among, allowed⟩ := offered
  · exact .inl free
  · exact .inr ⟨id, version, capabilities, arrived_kept move among, allowed⟩

/-- A question that was sent stays so while nothing more is sent under its number. -/
theorem sentOnce_kept (ordered : c.Ordered served) (move : AcpMove served c d) {number : Nat}
    {asked after : Asked}
    (sent : c.SentOnce served number asked) (turn : after.turn = asked.turn)
    (question : after.question = asked.question)
    (wire : asksOf number d.wire = asksOf number c.wire) : d.SentOnce served number after := by
  obtain ⟨task, found, once⟩ := sent
  obtain ⟨later, still, session⟩ := session_kept ordered move found
  refine ⟨later, turn ▸ still, ?_⟩
  rw [wire, once, turn, question, session]

/-- What the client has said of itself, if it has said something. -/
theorem known_kept (traced : c.Traced served) (move : AcpMove served c d)
    (known : c.capabilities = ⟨false, false⟩ ∨
      ∃ id version, .request id (.initializeRequest version c.capabilities) ∈ c.arrived) :
    d.capabilities = ⟨false, false⟩ ∨
      ∃ id version, .request id (.initializeRequest version d.capabilities) ∈ d.arrived := by
  obtain same | ⟨id, version, among⟩ := capabilities_kept traced move
  · rw [same]
    obtain none | ⟨id, version, among⟩ := known
    · exact .inl none
    · exact .inr ⟨id, version, arrived_kept move among⟩
  · exact .inr ⟨id, version, arrived_kept move among⟩

/-- A new question takes a new number, under which it is sent. -/
theorem consented_ask (before : c.Consented served) (ordered : c.Ordered served)
    (traced : c.Traced served)
    (move : AcpMove served c d) {turn : Nat} {task : PromptTask} {question : Question}
    (found : c.turns turn = some task) (allowed : c.capabilities.allow question = true)
    (asked : d.asked = c.asked + 1)
    (questions : d.questions = Function.update c.questions c.asked
      (some ⟨turn, question, .waiting⟩))
    (wire : d.wire = c.wire ++
      [⟨some turn, .request c.asked (question.toRequest served task.sessionId)⟩]) :
    d.Consented served := by
  have new : c.questions c.asked = none := before.fresh _ (Nat.le_refl _)
  have others (number : Nat) (apart : number ≠ c.asked) :
      asksOf number d.wire = asksOf number c.wire := by
    have silent :
        asksOf number [⟨some turn, .request c.asked (question.toRequest served task.sessionId)⟩] =
        [] :=
      List.filter_eq_nil_iff.mpr (List.forall_mem_singleton.mpr fun same =>
        apart (of_decide_eq_true same).symm)
    rw [wire, asksOf_append, silent, List.append_nil]
  refine ⟨known_kept traced move before.known, fun number above => ?_, fun number none => ?_,
    fun number its held => ?_, fun number its answer held answered => ?_, fun number its held => ?_⟩
  · rw [asked] at above
    rw [questions, Function.update_of_ne (by omega)]
    exact before.fresh number (by omega)
  · obtain ⟨apart, free⟩ := free_update (questions ▸ none)
    rw [others number apart, before.unasked number free]
  · obtain ⟨rfl, rfl⟩ | ⟨apart, old⟩ := held_update (questions ▸ held)
    · obtain ⟨after, still, session⟩ := session_kept ordered move found
      refine ⟨after, still, ?_⟩
      rw [wire, asksOf_append, before.unasked _ new, session]
      exact List.filter_eq_self.mpr (List.forall_mem_singleton.mpr (decide_eq_true rfl))
    · exact sentOnce_kept ordered move (before.sent number its old) rfl rfl (others number apart)
  · obtain ⟨rfl, rfl⟩ | ⟨-, old⟩ := held_update (questions ▸ held)
    · cases answered
    · exact arrived_kept move (before.answered number its answer old answered)
  · obtain ⟨rfl, rfl⟩ | ⟨-, old⟩ := held_update (questions ▸ held)
    · refine offered_kept move ?_
      obtain none | ⟨id, version, among⟩ := before.known
      · exact .inl (none ▸ allowed)
      · exact .inr ⟨id, version, c.capabilities, among, allowed⟩
    · exact offered_kept move (before.offered number its old)

/-- A question that is settled was sent before, and an answer to it has come from the client. -/
theorem consented_settle (before : c.Consented served) (ordered : c.Ordered served)
    (traced : c.Traced served)
    (move : AcpMove served c d) {number turn : Nat} {question : Question} {state : QuestionState}
    (waits : c.questions number = some ⟨turn, question, .waiting⟩)
    (settled : state = .dropped ∨ ∃ answer, state = .answered answer ∧
      .response number answer ∈ c.arrived)
    (questions : d.questions = Function.update c.questions number (some ⟨turn, question, state⟩))
    (asked : d.asked = c.asked) (wire : d.wire = c.wire) : d.Consented served := by
  have same (other : Nat) : asksOf other d.wire = asksOf other c.wire := by rw [wire]
  refine ⟨known_kept traced move before.known, fun other above => ?_, fun other none => ?_,
    fun other its held => ?_, fun other its answer held answered => ?_, fun other its held => ?_⟩
  · rw [asked] at above
    have apart : other ≠ number := by
      rintro rfl
      rw [before.fresh _ above] at waits
      cases waits
    rw [questions, Function.update_of_ne apart]
    exact before.fresh other above
  · rw [same, before.unasked other (free_update (questions ▸ none)).2]
  · obtain ⟨rfl, rfl⟩ | ⟨-, old⟩ := held_update (questions ▸ held)
    · exact sentOnce_kept ordered move (before.sent _ _ waits) rfl rfl (same other)
    · exact sentOnce_kept ordered move (before.sent other its old) rfl rfl (same other)
  · obtain ⟨rfl, rfl⟩ | ⟨-, old⟩ := held_update (questions ▸ held)
    · obtain rfl | ⟨given, rfl, among⟩ := settled
      · cases answered
      · cases answered
        exact arrived_kept move among
    · exact arrived_kept move (before.answered other its answer old answered)
  · obtain ⟨rfl, rfl⟩ | ⟨-, old⟩ := held_update (questions ▸ held)
    · exact offered_kept move (before.offered other ⟨turn, question, .waiting⟩ waits)
    · exact offered_kept move (before.offered other its old)

/-- A step asks only what is offered, and takes an answer only from the client. -/
theorem consented_kept (before : c.Consented served) (ordered : c.Ordered served) (tells : c.Tells)
    (traced : c.Traced served) (move : AcpMove served c d) : d.Consented served := by
  cases question_moves tells traced move with
  | leave questions asked wire =>
      refine ⟨known_kept traced move before.known, ?_, ?_, ?_, ?_, ?_⟩
      · rw [questions, asked]
        exact before.fresh
      · rw [questions]
        exact fun number none => (wire number).trans (before.unasked number none)
      · rw [questions]
        exact fun number asked found =>
          sentOnce_kept ordered move (before.sent number asked found) rfl rfl (wire number)
      · rw [questions]
        exact fun number asked answer found answered =>
          arrived_kept move (before.answered number asked answer found answered)
      · rw [questions]
        exact fun number asked found => offered_kept move (before.offered number asked found)
  | ask turn task question found allowed asked questions wire =>
      exact consented_ask before ordered traced move found allowed asked questions wire
  | settle number turn question state waits settled questions asked wire =>
      exact consented_settle before ordered traced move waits settled questions asked wire

end Steps

section Consent
variable {served : Served} {c d : AcpConnection}

theorem consented_reachable (reached : (acpMachine served).Reachable c) :
    c.Consented served ∧ c.Tells := by
  have both : (c.Consented served ∧ c.Tells) ∧ c.Ordered served ∧ c.Traced served := by
    refine @Machine.ReachableUnder.invariant _ _ _ _
      (fun c => (c.Consented served ∧ c.Tells) ∧ c.Ordered served ∧ c.Traced served) c reached ?_ ?_
    · rintro _ rfl
      have start : (acpMachine served).Reachable .initial := ⟨_, rfl, .refl⟩
      refine ⟨⟨⟨.inl rfl, fun _ _ => rfl, fun _ _ => rfl, ?_, ?_, ?_⟩, ?_⟩, ordered_reachable start,
        traced_reachable start⟩
      · rintro _ _ ⟨⟩
      · rintro _ _ _ ⟨⟩
      · rintro _ _ ⟨⟩
      · rintro _ ⟨⟩
    · rintro _ _ _ ⟨⟨consented, tells⟩, ordered, traced⟩ - stepped
      have move := step_moves stepped
      exact ⟨⟨consented_kept consented ordered tells traced move, tells_kept tells move⟩,
        ordered_kept ordered move, traced_kept traced move⟩
  exact both.1

/-- A step settles only questions that wait. -/
theorem settled_kept (consented : c.Consented served) (tells : c.Tells) (traced : c.Traced served)
    (move : AcpMove served c d) {number : Nat} {asked : Asked}
    (found : c.questions number = some asked)
    (settled : asked.state ≠ .waiting) : d.questions number = some asked := by
  cases question_moves tells traced move with
  | leave questions => rw [questions, found]
  | ask turn task question _ _ _ questions =>
      have apart : number ≠ c.asked := by
        rintro rfl
        rw [consented.fresh _ (Nat.le_refl _)] at found
        cases found
      rw [questions, Function.update_of_ne apart, found]
  | settle other turn question state waits _ questions =>
      have apart : number ≠ other := by
        rintro rfl
        rw [waits] at found
        cases found
        exact settled rfl
      rw [questions, Function.update_of_ne apart, found]

/-- Only the options that allow are taken for a permission. -/
theorem allowed_selected {answer : ClientAnswer} (allowed : answer.decision.isAllowed = true) :
    answer = .selected "allow_once" ∨ answer = .selected "allow_always" := by
  rw [ClientAnswer.decision.eq_def] at allowed
  split at allowed
  · exact .inl rfl
  · exact .inr rfl
  · cases allowed
  · cases allowed

/-- What a client is asked was sent to it once, under a number of its own, and a file only if it has
said that it serves files. An answer is one that the client has given to that number, it permits a
call only by an option that allows it, and it is final. -/
theorem answers_from_client (reached : (acpMachine served).Reachable c) :
    (∀ number asked, c.questions number = some asked →
      c.SentOnce served number asked ∧ c.Offered asked.question ∧
      (∀ answer, asked.state = .answered answer → .response number answer ∈ c.arrived ∧
        (answer.decision.isAllowed = true →
          answer = .selected "allow_once" ∨ answer = .selected "allow_always")) ∧
      (asked.state ≠ .waiting → ∀ d, (acpMachine served).Runs Machine.free c d →
        d.questions number = some asked)) ∧
    ∀ sent ∈ c.wire, ∀ number request, sent.message = .request number request →
      ∃ asked, c.questions number = some asked := by
  obtain ⟨consented, -⟩ := consented_reachable reached
  refine ⟨fun number asked found => ⟨consented.sent number asked found,
    consented.offered number asked found, fun answer answered =>
      ⟨consented.answered number asked answer found answered, allowed_selected⟩,
    fun settled d run => ?_⟩, fun sent among number request same => ?_⟩
  · have ends : (acpMachine served).Reachable d ∧ d.questions number = some asked := by
      refine @Machine.Runs.preserves _ _ _ _
        (fun s => (acpMachine served).Reachable s ∧ s.questions number = some asked) _ _ run
          ⟨reached, found⟩ ?_
      rintro _ action _ ⟨here, held⟩ - stepped
      obtain ⟨allowed, tells⟩ := consented_reachable here
      exact ⟨here.step stepped, settled_kept allowed tells (traced_reachable here)
        (step_moves stepped) held settled⟩
    exact ends.2
  · cases held : c.questions number with
    | some asked => exact ⟨asked, rfl⟩
    | none =>
        have asks : sent.message.asks number = true := same ▸ decide_eq_true rfl
        have none := List.filter_eq_nil_iff.mp (consented.unasked number held) sent among
        exact absurd asks none

/-- A file that a turn wants to read. -/
def fileQuestion : Question := .readTextFile "/w/a" none (some 10)

/-- A command is allowed, a number that nobody asked under is answered, and a turn
that wants a file is cancelled. -/
def consentTraffic : List AcpAction :=
  [.arrive (.request (.number 0) (.initializeRequest 1 ⟨true, false⟩)), .take, .sendReply,
    .arrive (.request (.number 1) (.prompt "s" [.text "Run it."])), .take, .ask 0 sampleQuestion,
    .arrive (.response 0 (.selected "allow_once")), .ask 0 fileQuestion,
    .arrive (.response 5 .written), .take, .take, .drop 1,
      .arrive (.response 0 (.selected "reject_once")), .arrive (.response 1 (.content "text"))]

/-- The later answers change neither of the two. -/
theorem answers_from_client_sample :
    ∃ c d, (acpMachine sampleServed).exec .initial consentTraffic = some c ∧
    (acpMachine sampleServed).exec c [.take, .take] = some d ∧
    c.SentOnce sampleServed 0 ⟨0, sampleQuestion, .answered (.selected "allow_once")⟩ ∧
    c.Offered fileQuestion ∧
    .response 0 (.selected "allow_once") ∈ c.arrived ∧
    d.questions 0 = some ⟨0, sampleQuestion, .answered (.selected "allow_once")⟩ ∧
    d.questions 1 = some ⟨0, fileQuestion, .dropped⟩ := by
  obtain ⟨c, d, executed, later, command, file⟩ : ∃ c d,
      (acpMachine sampleServed).exec .initial consentTraffic = some c ∧
      (acpMachine sampleServed).exec c [.take, .take] = some d ∧
      c.questions 0 = some ⟨0, sampleQuestion, .answered (.selected "allow_once")⟩ ∧
      c.questions 1 = some ⟨0, fileQuestion, .dropped⟩ := ⟨_, _, rfl, rfl, rfl, rfl⟩
  have run : (acpMachine sampleServed).Runs Machine.free c d :=
    Machine.exec_runs (Machine.permits_free _ _ _) later
  obtain ⟨questions, -⟩ := answers_from_client (Machine.reachable_of_exec rfl executed)
  obtain ⟨sent, -, answered, final⟩ := questions 0 _ command
  obtain ⟨-, offered, -, dropped⟩ := questions 1 _ file
  refine ⟨c, d, executed, later, sent, offered, (answered _ rfl).1, final ?_ d run,
    dropped ?_ d run⟩
  · rintro ⟨⟩
  · rintro ⟨⟩

end Consent

end Openheim.Acp
