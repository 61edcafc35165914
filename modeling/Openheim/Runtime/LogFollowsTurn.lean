import Openheim.Core.TrimReports
import Openheim.Runtime.PromptTurn

namespace Openheim.Runtime
open Openheim.Memory

/-- The log can be read, and what it holds is the beginning of the given messages. -/
def ReadsPrefix (serde : Memory.SerdeJson) (files : ConversationFiles)
    (messages : List Message) : Prop :=
  ∃ logged, readMessageLog serde files = .ok logged ∧ logged <+: messages

/-- While no write failed the log is whole and holds all messages that are due;
afterwards it holds some of them. -/
def Logged (serde : Memory.SerdeJson) (files : ConversationFiles) (writeFailed : Bool)
    (messages : List Message) :
    Prop :=
  if writeFailed then ReadsPrefix serde files messages else WholeLog serde files messages

/-- The JSON library writes each of the messages on one line. -/
def WritesLines (serde : Memory.SerdeJson) (messages : List Message) : Prop :=
  ∀ message ∈ messages, serde.WritesLine message

/-- How the log follows a turn that started on the given messages. -/
def PromptTurn.Follows (settings : PromptSettings) (prior : List Message) (s : PromptTurn) : Prop :=
  match s.stage with
  | .idle => s.writeFailed = false ∧ WholeLog settings.serde s.files prior
  | .prepared input _ conv | .recording input _ conv =>
      s.writeFailed = false ∧ conv.messages = prior ++ [input.user] ∧
        WholeLog settings.serde s.files prior
  | .running input _ run handled =>
      run.HistoryInvariant (prior ++ [input.user]) ∧ (WritesLines settings.serde run.messages →
        Logged settings.serde s.files s.writeFailed
          (prior ++ [input.user] ++ (run.events.take handled).filterMap appendedMessage))
  | .saved input _ run success =>
      run.HistoryInvariant (prior ++ [input.user]) ∧ (WritesLines settings.serde run.messages →
        ReadsPrefix settings.serde s.files run.messages ∧
          (success → readMessageLog settings.serde s.files = .ok run.messages))
  | .failed _ => True

/-- Where a turn can go in one step. -/
inductive StageMoves (json : Openheim.SerdeJson) : PromptStage → PromptStage → Prop where
  | prepare (input : PromptInput) (builder : PromptBuilder) (conv : Conversation) :
      StageMoves json .idle (.prepared input builder conv)
  | fail (error : Error) : StageMoves json .idle (.failed error)
  | record (input : PromptInput) (builder : PromptBuilder) (conv : Conversation) :
      StageMoves json (.prepared input builder conv) (.recording input builder conv)
  | launchUnrecorded (input : PromptInput) (builder : PromptBuilder) (conv : Conversation)
      (cancelled : Bool) :
      StageMoves json (.prepared input builder conv) (.running input conv.meta_
        (.start input.config (some builder) input.toolsBytes conv.messages cancelled) 0)
  | launch (input : PromptInput) (builder : PromptBuilder) (conv : Conversation)
      (cancelled : Bool) :
      StageMoves json (.recording input builder conv) (.running input conv.meta_
        (.start input.config (some builder) input.toolsBytes conv.messages cancelled) 0)
  | loop (input : PromptInput) (meta_ : ConversationMeta) (run after : AgentRun) (handled : Nat)
      (action : AgentAction)
      (taken : run.step json action = some after) :
      StageMoves json (.running input meta_ run handled) (.running input meta_ after handled)
  | handle (input : PromptInput) (meta_ : ConversationMeta) (run : AgentRun) (handled : Nat)
      (more : handled < run.events.length) :
      StageMoves json (.running input meta_ run handled) (.running input meta_ run (handled + 1))
  | save (input : PromptInput) (meta_ final : ConversationMeta) (run : AgentRun) (handled : Nat)
      (success : Bool) :
      StageMoves json (.running input meta_ run handled) (.saved input final run success)
  | stay (stage : PromptStage) : StageMoves json stage stage

/-- This is where every step of a turn goes. -/
theorem PromptTurn.step_stage {settings : PromptSettings} {s t : PromptTurn} {action : PromptAction}
    (stepped : s.step settings action = some t) : StageMoves settings.json s.stage t.stage := by
  cases action with
  | prepare =>
      unfold PromptTurn.step PromptTurn.prepare at stepped
      dsimp only at stepped
      split at stepped
      · next idle =>
        rw [idle]
        split at stepped
        · cases stepped
          exact .prepare _ _ _
        · cases stepped
          exact .fail _
        · cases stepped
          exact .fail _
      · cases stepped
  | recordMeta =>
      unfold PromptTurn.step PromptTurn.recordMeta at stepped
      dsimp only at stepped
      split at stepped
      · next prepared =>
        rw [prepared]
        split at stepped
        · cases stepped
          exact .record _ _ _
        · cases stepped
          exact .launchUnrecorded _ _ _ _
      · cases stepped
  | recordUser =>
      unfold PromptTurn.step PromptTurn.recordUser at stepped
      dsimp only at stepped
      split at stepped
      · next recording =>
        rw [recording]
        cases stepped
        exact .launch _ _ _ _
      · cases stepped
  | cancel =>
      cases stepped
      unfold PromptTurn.cancel
      split
      · next running =>
        rw [running]
        exact .loop _ _ _ _ _ .cancel rfl
      · exact .stay _
  | agent =>
      unfold PromptTurn.step PromptTurn.stepAgent at stepped
      dsimp only at stepped
      split at stepped
      · next running =>
        rw [running]
        split at stepped
        · obtain ⟨after, moved, rfl⟩ := Option.map_eq_some_iff.mp stepped
          exact .loop _ _ _ _ _ _ moved
        · cases stepped
      · cases stepped
  | handle =>
      unfold PromptTurn.step PromptTurn.handle at stepped
      dsimp only at stepped
      split at stepped
      · next running =>
        rw [running]
        obtain ⟨event, reached, same⟩ := Option.map_eq_some_iff.mp stepped
        have more := (List.getElem?_eq_some_iff.mp reached).1
        split at same
        · cases same
          exact .handle _ _ _ _ more
        · cases same
          exact .handle _ _ _ _ more
      · cases stepped
  | save =>
      unfold PromptTurn.step PromptTurn.save at stepped
      dsimp only at stepped
      split at stepped
      · next running =>
        rw [running]
        split at stepped
        · split at stepped
          · split at stepped
            · cases stepped
              exact .save _ _ _ _ _ _
            · cases stepped
              exact .save _ _ _ _ _ _
          · cases stepped
        · cases stepped
      · cases stepped

/-- The final save is the end of a turn. -/
theorem StageMoves.unsaved {json : Openheim.SerdeJson} {old new : PromptStage}
    (moved : StageMoves json old new) (unsaved : new.success = none) : old.success = none := by
  cases moved with
  | stay => exact unsaved
  | _ => rfl

/-- A turn that failed to begin has no conversation later on. -/
theorem StageMoves.ofFailed {json : Openheim.SerdeJson} {error : Error} {new : PromptStage}
    (moved : StageMoves json (.failed error) new) : new = .failed error := by
  cases moved
  rfl

section Logged
variable {serde : Memory.SerdeJson} {files : ConversationFiles} {messages : List Message}
  {message : Message}
  {writeFailed : Bool}

/-- What reads as a prefix does so while messages are added. -/
theorem ReadsPrefix.mono {more : List Message} (reads : ReadsPrefix serde files messages)
    (grows : messages <+: more) :
    ReadsPrefix serde files more := by
  obtain ⟨logged, read, part⟩ := reads
  exact ⟨logged, read, part.trans grows⟩

/-- What was logged reads as a prefix of the messages. -/
theorem Logged.readsPrefix (logged : Logged serde files writeFailed messages) :
    ReadsPrefix serde files messages := by
  unfold Logged at logged
  split at logged
  · exact logged
  · exact ⟨messages, logged.read, List.prefix_rfl⟩

theorem Logged.whole (logged : Logged serde files false messages) :
    WholeLog serde files messages := logged

/-- The next message is due once its append was tried. -/
theorem logged_append (whole : WholeLog serde files messages) (written : serde.WritesLine message)
    {line : LineWrite} (boundary : line.AtBoundary serde message) (now : Instant)
    (metaWritten : Bool) :
    Logged serde (appendMessageWith serde now line metaWritten files message).1
      (!(appendMessageWith serde now line metaWritten files message).2)
        (messages ++ [message]) := by
  obtain ⟨⟨last, either, read⟩, kept⟩ := whole.appendWith written boundary now metaWritten
  unfold Logged
  split
  · refine ⟨messages ++ last, read, ?_⟩
    rcases either with rfl | rfl
    · exact (List.prefix_append_right_inj messages).mpr (List.nil_prefix)
    · exact List.prefix_rfl
  · next appended => exact kept (by simpa using appended)

end Logged

section Steps
variable {settings : PromptSettings} {prior : List Message} {s t : PromptTurn}

/-- A conversation without a meta file is created only on an empty log, which stays whole. -/
theorem resolveConversationWith_whole {serde : Memory.SerdeJson} {files : ConversationFiles}
    (now : Instant)
    (outcome : SaveOutcome) {id : Uuid} {model provider : Option String} {skills : List String}
    {conv : Conversation} (whole : WholeLog serde files prior)
    (resolved : (resolveConversationWith serde now outcome files id model provider skills).2 =
      .ok conv) :
    conv.messages = prior ∧
      WholeLog serde (resolveConversationWith serde now outcome files id model provider skills).1
        prior := by
  unfold resolveConversationWith at resolved ⊢
  split at resolved
  · next present =>
    rw [if_pos present]
    unfold loadConversation at resolved
    split at resolved
    · cases resolved
    · rw [whole.read] at resolved
      cases resolved
      exact ⟨rfl, whole⟩
  · next absent =>
    rw [if_neg absent]
    dsimp only at resolved ⊢
    rcases saveConversationWith_cases serde now outcome files
        ⟨.new now id model provider skills, []⟩ with
      ⟨error, failed⟩ | ⟨onDisk, meta_, read, part, saved⟩
    · rw [failed] at resolved
      cases resolved
    · rw [saved] at resolved ⊢
      obtain rfl : onDisk = [] := List.prefix_nil.mp part
      obtain rfl : prior = [] := Except.ok.inj (whole.read.symm.trans read)
      dsimp only at resolved
      split at resolved
      · cases resolved
        exact ⟨rfl, .of_written (by simp) (saveMetaWith_log _ _)⟩
      · cases resolved

namespace PromptTurn.Follows

/-- Preparing the turn keeps the log behind the messages. -/
theorem prepare (follows : s.Follows settings prior) {now : Instant} {outcome : SaveOutcome}
    {input : PromptInput}
    {builder : Except Error PromptBuilder}
    (stepped : s.prepare settings now outcome input builder = some t) :
    t.Follows settings prior := by
  unfold PromptTurn.prepare at stepped
  split at stepped
  · next idle =>
    rw [PromptTurn.Follows, idle] at follows
    obtain ⟨fine, whole⟩ := follows
    dsimp only at stepped
    split at stepped
    · next resolved =>
      obtain ⟨loaded, kept⟩ := resolveConversationWith_whole now outcome whole resolved
      cases stepped
      exact ⟨fine, congrArg (· ++ [input.user]) loaded, kept⟩
    · cases stepped
      trivial
    · cases stepped
      trivial
  · cases stepped

/-- When the loop starts, the messages in memory are the earlier ones and that of the user. -/
theorem launch {input : PromptInput} {builder : PromptBuilder} {conv : Conversation}
    (messages : conv.messages = prior ++ [input.user])
    (logged : WritesLines settings.serde conv.messages →
      Logged settings.serde s.files s.writeFailed (prior ++ [input.user])) :
    (s.launch input builder conv).Follows settings prior := by
  refine ⟨?_, ?_⟩
  · rw [messages]
    exact .start _ _ _ _ _
  · intro written
    show Logged settings.serde s.files s.writeFailed (prior ++ [input.user] ++ [])
    rw [List.append_nil]
    exact logged written

/-- Recording the meta file keeps the log behind the messages. -/
theorem recordMeta (follows : s.Follows settings prior) {now : Instant} {written : Bool}
    (stepped : s.recordMeta now written = some t) : t.Follows settings prior := by
  unfold PromptTurn.recordMeta at stepped
  split at stepped
  · next prepared =>
    rw [PromptTurn.Follows, prepared] at follows
    obtain ⟨fine, messages, whole⟩ := follows
    split at stepped
    · cases stepped
      exact ⟨fine, messages, whole.of_log rfl⟩
    · cases stepped
      exact launch messages fun _ => ⟨prior, whole.read, List.prefix_append prior _⟩
  · cases stepped

/-- Recording the prompt keeps the log behind the messages. -/
theorem recordUser (follows : s.Follows settings prior) {now : Instant} {line : LineWrite}
    {metaWritten : Bool}
    (boundary : ∀ message ∈ s.nextMessage, line.AtBoundary settings.serde message)
    (stepped : s.recordUser settings now line metaWritten = some t) : t.Follows settings prior := by
  unfold PromptTurn.recordUser at stepped
  split at stepped
  · next input builder conv recording =>
    rw [PromptTurn.Follows, recording] at follows
    obtain ⟨fine, messages, whole⟩ := follows
    cases stepped
    refine launch messages fun written => ?_
    have user : settings.serde.WritesLine input.user := by
      apply written
      rw [messages]
      exact List.mem_append_right _ List.mem_cons_self
    exact logged_append whole user (boundary _ (by simp [PromptTurn.nextMessage, recording])) now _
  · cases stepped

/-- The loop only adds messages. -/
theorem messages_grow {run after : AgentRun} {initial : List Message} {action : AgentAction}
    (history : run.HistoryInvariant initial) (moved : run.step settings.json action = some after) :
    run.messages <+: after.messages := by
  rw [history.messages_eq, (history.step moved).messages_eq]
  exact (List.prefix_append_right_inj _).mpr ((AgentRun.step_events moved).filterMap _)

/-- The token leaves the log as it is. -/
theorem cancel (follows : s.Follows settings prior) : s.cancel.Follows settings prior := by
  unfold PromptTurn.cancel
  split
  · next running =>
    rw [PromptTurn.Follows, running] at follows
    exact ⟨follows.1.of_same rfl rfl rfl, follows.2⟩
  · exact follows

/-- A step of the loop leaves the log as it is. -/
theorem stepAgent (follows : s.Follows settings prior) {action : AgentAction}
    (stepped : s.stepAgent settings action = some t) : t.Follows settings prior := by
  unfold PromptTurn.stepAgent at stepped
  split at stepped
  · next input meta_ run handled running =>
    rw [PromptTurn.Follows, running] at follows
    obtain ⟨history, logged⟩ := follows
    split at stepped
    · next all =>
      obtain ⟨after, moved, rfl⟩ := Option.map_eq_some_iff.mp stepped
      obtain ⟨extra, grown⟩ := AgentRun.step_events moved
      refine ⟨history.step moved, fun written => ?_⟩
      have due :=
        logged fun message member => written message ((messages_grow history moved).subset member)
      rw [all, List.take_length] at due
      rw [all, ← grown, List.take_left]
      exact due
    · cases stepped
  · cases stepped

/-- Handling an event keeps the log behind the messages. -/
theorem handle (follows : s.Follows settings prior) {now : Instant} {line : LineWrite}
    {metaWritten : Bool}
    (boundary : ∀ message ∈ s.nextMessage, line.AtBoundary settings.serde message)
    (stepped : s.handle settings now line metaWritten = some t) : t.Follows settings prior := by
  unfold PromptTurn.handle at stepped
  split at stepped
  · next input meta_ run handled running =>
    rw [PromptTurn.Follows, running] at follows
    obtain ⟨history, logged⟩ := follows
    obtain ⟨event, reached, same⟩ := Option.map_eq_some_iff.mp stepped
    have taken : (run.events.take (handled + 1)).filterMap appendedMessage =
        (run.events.take handled).filterMap appendedMessage ++ (appendedMessage event).toList := by
      rw [List.take_add_one, reached, List.filterMap_append]
      cases told : appendedMessage event <;> simp [told]
    split at same
    · next message told fine =>
      cases same
      refine ⟨history, fun written => ?_⟩
      have user : settings.serde.WritesLine message := by
        apply written
        rw [history.messages_eq]
        exact List.mem_append_right _ (List.mem_filterMap.mpr ⟨event,
          List.mem_of_getElem? reached, told⟩)
      have next : s.nextMessage = some message := by
        rw [PromptTurn.nextMessage, running]
        show run.events[handled]?.bind appendedMessage = _
        rw [reached]
        exact told
      have due := logged written
      rw [fine] at due
      rw [taken, told, ← List.append_assoc]
      exact logged_append due.whole user (boundary message next) now metaWritten
    · next other =>
      cases same
      refine ⟨history, fun written => ?_⟩
      have due := logged written
      rw [taken, ← List.append_assoc]
      cases told : appendedMessage event with
      | none => simpa using due
      | some message =>
          cases failed : s.writeFailed with
          | false => exact absurd failed (other message told)
          | true =>
              rw [failed] at due
              exact ReadsPrefix.mono due (List.prefix_append _ _)
  · cases stepped

/-- The last save leaves the log behind the messages. -/
theorem save (follows : s.Follows settings prior) {now : Instant} {outcome : SaveOutcome}
    (stepped : s.save settings now outcome = some t) : t.Follows settings prior := by
  unfold PromptTurn.save at stepped
  split at stepped
  · next input meta_ run handled running =>
    rw [PromptTurn.Follows, running] at follows
    obtain ⟨history, logged⟩ := follows
    split at stepped
    · split at stepped
      · next result returned all =>
        rw [all, List.take_length, ← history.messages_eq] at logged
        dsimp only at stepped
        split at stepped
        · cases stepped
          refine ⟨history, fun written => ?_⟩
          have ends :=
            saveConversationWith_cases settings.serde now outcome s.files ⟨finalMeta meta_ result,
              run.messages⟩
          rcases ends with ⟨error, kept⟩ | ⟨onDisk, final, _, _, saved⟩
          · rw [kept]
            exact ⟨(logged written).readsPrefix, fun success => nomatch success⟩
          · have whole :
                WholeLog settings.serde (saveConversationWith settings.serde now outcome s.files
                ⟨finalMeta meta_ result, run.messages⟩).1 run.messages := by
              apply WholeLog.of_written written
              rw [saved]
              exact saveMetaWith_log _ _
            exact ⟨⟨_, whole.read, List.prefix_rfl⟩, fun _ => whole.read⟩
        · next fine =>
          cases stepped
          refine ⟨history, fun written => ?_⟩
          have due := logged written
          rw [Bool.not_eq_true] at fine
          rw [fine] at due
          have whole :
              WholeLog settings.serde (saveMetaWith now outcome.metaWritten s.files
                (finalMeta meta_ result))
              run.messages := due.whole.of_log (saveMetaWith_log _ _)
          exact ⟨⟨_, whole.read, List.prefix_rfl⟩, fun _ => whole.read⟩
      · cases stepped
    · cases stepped
  · cases stepped

/-- Every step of a turn keeps the log behind the conversation. -/
theorem step (follows : s.Follows settings prior) {action : PromptAction}
    (permitted : tornAtBoundary settings s action)
    (stepped : s.step settings action = some t) : t.Follows settings prior := by
  cases action with
  | prepare => exact follows.prepare stepped
  | recordMeta => exact follows.recordMeta stepped
  | recordUser => exact follows.recordUser permitted stepped
  | cancel =>
      cases stepped
      exact follows.cancel
  | agent => exact follows.stepAgent stepped
  | handle => exact follows.handle permitted stepped
  | save => exact follows.save stepped

/-- Once a write failed, the log still reads as a beginning of the conversation. -/
theorem readsPrefix (follows : s.Follows settings prior) {messages : List Message}
    (conversation : s.stage.messages = some messages)
    (written : WritesLines settings.serde messages) :
    ReadsPrefix settings.serde s.files messages := by
  unfold PromptTurn.Follows at follows
  split at follows
  · next idle =>
    rw [idle] at conversation
    cases conversation
  · next prepared =>
    rw [prepared] at conversation
    cases conversation
    exact ⟨prior, follows.2.2.read, follows.2.1 ▸ List.prefix_append _ _⟩
  · next recording =>
    rw [recording] at conversation
    cases conversation
    exact ⟨prior, follows.2.2.read, follows.2.1 ▸ List.prefix_append _ _⟩
  · next running =>
    rw [running] at conversation
    cases conversation
    apply (follows.2 written).readsPrefix.mono
    rw [follows.1.messages_eq]
    exact (List.prefix_append_right_inj _).mpr ((List.take_prefix _ _).filterMap _)
  · next saved =>
    rw [saved] at conversation
    cases conversation
    exact (follows.2 written).1
  · next failed =>
    rw [failed] at conversation
    cases conversation

/-- The conversation is the earlier messages, that of the user, and what the loop produced. -/
theorem messages_eq (follows : s.Follows settings prior) {messages : List Message}
    (conversation : s.stage.messages = some messages) :
    ∃ input, s.stage.input = some input ∧ messages = prior ++ input.user :: s.stage.produced := by
  unfold PromptTurn.Follows at follows
  split at follows
  · next idle =>
    rw [idle] at conversation
    cases conversation
  · next prepared =>
    rw [prepared] at conversation ⊢
    cases conversation
    exact ⟨_, rfl, follows.2.1⟩
  · next recording =>
    rw [recording] at conversation ⊢
    cases conversation
    exact ⟨_, rfl, follows.2.1⟩
  · next running =>
    rw [running] at conversation ⊢
    cases conversation
    exact ⟨_, rfl, by rw [follows.1.messages_eq, List.append_assoc]; rfl⟩
  · next saved =>
    rw [saved] at conversation ⊢
    cases conversation
    exact ⟨_, rfl, by rw [follows.1.messages_eq, List.append_assoc]; rfl⟩
  · next failed =>
    rw [failed] at conversation
    cases conversation

/-- A turn that found its conversation keeps it and only adds to it. -/
theorem step_messages (follows : s.Follows settings prior) {action : PromptAction}
    (stepped : s.step settings action = some t) {messages : List Message}
    (conversation : s.stage.messages = some messages) :
    ∃ more, t.stage.messages = some more ∧ messages <+: more := by
  have moved := PromptTurn.step_stage stepped
  generalize next : t.stage = stage at moved
  cases old : s.stage with
  | idle =>
      rw [old] at conversation
      cases conversation
  | failed =>
      rw [old] at conversation
      cases conversation
  | running input meta_ run handled =>
      rw [PromptTurn.Follows, old] at follows
      rw [old] at conversation moved
      cases conversation
      cases moved with
      | loop _ _ _ _ _ _ taken => exact ⟨_, rfl, messages_grow follows.1 taken⟩
      | _ => exact ⟨_, rfl, List.prefix_rfl⟩
  | _ =>
      rw [old] at conversation moved
      cases conversation
      cases moved with
      | _ => exact ⟨_, rfl, List.prefix_rfl⟩

/-- After a failed write, nothing is written until the final save. -/
theorem step_frozen (follows : s.Follows settings prior) (failed : s.writeFailed = true)
    {action : PromptAction}
    (stepped : s.step settings action = some t) (unsaved : t.stage.success = none) :
    t.files = s.files ∧ t.writeFailed = true := by
  cases action with
  | prepare =>
      unfold PromptTurn.step PromptTurn.prepare at stepped
      dsimp only at stepped
      split at stepped
      · next idle =>
        rw [PromptTurn.Follows, idle, failed] at follows
        cases follows.1
      · cases stepped
  | recordMeta =>
      unfold PromptTurn.step PromptTurn.recordMeta at stepped
      dsimp only at stepped
      split at stepped
      · next prepared =>
        rw [PromptTurn.Follows, prepared, failed] at follows
        cases follows.1
      · cases stepped
  | recordUser =>
      unfold PromptTurn.step PromptTurn.recordUser at stepped
      dsimp only at stepped
      split at stepped
      · next recording =>
        rw [PromptTurn.Follows, recording, failed] at follows
        cases follows.1
      · cases stepped
  | cancel =>
      cases stepped
      unfold PromptTurn.cancel
      split
      · exact ⟨rfl, failed⟩
      · exact ⟨rfl, failed⟩
  | agent =>
      unfold PromptTurn.step PromptTurn.stepAgent at stepped
      dsimp only at stepped
      split at stepped
      · split at stepped
        · obtain ⟨after, _, rfl⟩ := Option.map_eq_some_iff.mp stepped
          exact ⟨rfl, failed⟩
        · cases stepped
      · cases stepped
  | handle =>
      unfold PromptTurn.step PromptTurn.handle at stepped
      dsimp only at stepped
      split at stepped
      · obtain ⟨event, _, same⟩ := Option.map_eq_some_iff.mp stepped
        split at same
        · next fine =>
          rw [failed] at fine
          cases fine
        · cases same
          exact ⟨rfl, failed⟩
      · cases stepped
  | save =>
      unfold PromptTurn.step PromptTurn.save at stepped
      dsimp only at stepped
      split at stepped
      · split at stepped
        · split at stepped
          · cases stepped
            cases unsaved
          · cases stepped
        · cases stepped
      · cases stepped

/-- In every run whose lines are torn only at a boundary, the log follows the messages. -/
theorem run (follows : s.Follows settings prior)
    (later : (promptMachine settings).Runs (tornAtBoundary settings) s t) :
    t.Follows settings prior :=
  later.preserves follows fun _ _ _ before permitted stepped => before.step permitted stepped

/-- A conversation only grows while its turn goes on. -/
theorem run_messages (follows : s.Follows settings prior)
    (later : (promptMachine settings).Runs (tornAtBoundary settings) s t) {messages : List Message}
    (conversation : s.stage.messages = some messages) :
    ∃ more, t.stage.messages = some more ∧ messages <+: more := by
  have both : t.Follows settings prior ∧ ∃ more, t.stage.messages = some more ∧
      messages <+: more := by
    apply later.preserves
    · exact ⟨follows, messages, conversation, List.prefix_rfl⟩
    · rintro u action v ⟨before, more, middle, grows⟩ permitted stepped
      obtain ⟨last, after, further⟩ := before.step_messages stepped middle
      exact ⟨before.step permitted stepped, last, after, grows.trans further⟩
  exact both.2

/-- From a failed write to the final save the files stay as they are. -/
theorem run_frozen (follows : s.Follows settings prior) (failed : s.writeFailed = true)
    (later : (promptMachine settings).Runs (tornAtBoundary settings) s t)
    (unsaved : t.stage.success = none) :
    t.files = s.files := by
  have both : t.Follows settings prior ∧ (t.stage.success = none →
      t.files = s.files ∧ t.writeFailed = true) := by
    apply later.preserves
    · exact ⟨follows, fun _ => ⟨rfl, failed⟩⟩
    · rintro u action v ⟨before, frozen⟩ permitted stepped
      refine ⟨before.step permitted stepped, fun open_ => ?_⟩
      obtain ⟨same, still⟩ := frozen ((PromptTurn.step_stage stepped).unsaved open_)
      obtain ⟨next, flag⟩ := before.step_frozen still stepped open_
      exact ⟨next.trans same, flag⟩
  exact (both.2 unsaved).1

/-- A turn that failed stays so. -/
theorem run_failed {error : Error} (failed : s.stage = .failed error)
    (later : (promptMachine settings).Runs (tornAtBoundary settings) s t) :
    t.stage = .failed error := by
  apply later.preserves
  · exact failed
  · intro u action v before _ stepped
    have moved := PromptTurn.step_stage stepped
    rw [before] at moved
    exact moved.ofFailed

/-- At any point of a turn the log reads as the beginning of any later state of the conversation. -/
theorem readsPrefix_later (follows : s.Follows settings prior)
    (later : (promptMachine settings).Runs (tornAtBoundary settings) s t) {final : List Message}
    (conversation : t.stage.messages = some final) (written : WritesLines settings.serde final) :
    ReadsPrefix settings.serde s.files final := by
  cases now : s.stage.messages with
  | some messages =>
      obtain ⟨more, same, grows⟩ := follows.run_messages later now
      obtain rfl : more = final := Option.some.inj (same.symm.trans conversation)
      exact (follows.readsPrefix now fun message member =>
        written message (grows.subset member)).mono grows
  | none =>
      cases stage : s.stage with
      | idle =>
          obtain ⟨input, _, same⟩ := (follows.run later).messages_eq conversation
          rw [PromptTurn.Follows, stage] at follows
          rw [same]
          exact ⟨prior, follows.2.read, List.prefix_append _ _⟩
      | failed error =>
          rw [run_failed stage later] at conversation
          cases conversation
      | _ =>
          rw [stage] at now
          cases now

/-- A final save that reports success leaves the whole conversation in the log. -/
theorem saved (follows : s.Follows settings prior) (success : s.stage.success = some true)
    {final : List Message} (conversation : s.stage.messages = some final)
    (written : WritesLines settings.serde final) :
    readMessageLog settings.serde s.files = .ok final := by
  cases stage : s.stage with
  | saved input meta_ run reported =>
      rw [PromptTurn.Follows, stage] at follows
      rw [stage] at success conversation
      cases conversation
      exact (follows.2 written).2 (Option.some.inj success)
  | _ =>
      rw [stage] at success
      cases success

end PromptTurn.Follows

end Steps

/-- A turn starts on a log that is not torn, and each of its writes may fail. At every point the log
reads as the beginning of the conversation, which is the earlier messages, that of the user and
those that the loop produced; from a failed write to the final save no file changes; and a final
save that succeeds leaves the whole conversation. A save that finds the history diverged changes no
file, and one that changes the log found a beginning of its messages. -/
theorem log_follows_turn {settings : PromptSettings} {first s t : PromptTurn} {final : List Message}
    (started : (promptMachine settings).start first)
    (reached : (promptMachine settings).Runs (tornAtBoundary settings) first s)
    (later : (promptMachine settings).Runs (tornAtBoundary settings) s t)
    (conversation : t.stage.messages = some final)
    (written : ∀ message ∈ final, settings.serde.WritesLine message) :
    (∃ prior input, readMessageLog settings.serde first.files = .ok prior ∧
        t.stage.input = some input ∧
      final = prior ++ input.user :: t.stage.produced) ∧
    (∃ logged, readMessageLog settings.serde s.files = .ok logged ∧ logged <+: final) ∧
    (s.writeFailed = true → t.stage.success = none → t.files = s.files) ∧
    (t.stage.success = some true → readMessageLog settings.serde t.files = .ok final) ∧
    ∀ now outcome files conv,
      (∀ id, (saveConversationWith settings.serde now outcome files conv).2 =
          .error (.historyDiverged id) →
        (saveConversationWith settings.serde now outcome files conv).1 = files) ∧
      ((saveConversationWith settings.serde now outcome files conv).1.log = files.log ∨
        ∃ onDisk, readMessageLog settings.serde files = .ok onDisk ∧ onDisk <+: conv.messages) := by
  obtain ⟨idle, fine, prior, whole⟩ := started
  have begun : first.Follows settings prior := by
    rw [PromptTurn.Follows, idle]
    exact ⟨fine, whole⟩
  have here := begun.run reached
  have there := here.run later
  refine ⟨?_, here.readsPrefix_later later conversation written,
    fun failed open_ => here.run_frozen failed later open_,
    fun success => there.saved success conversation written, fun now outcome files conv => ⟨?_, ?_⟩⟩
  · obtain ⟨input, same, messages⟩ := there.messages_eq conversation
    exact ⟨prior, input, whole.read, same, messages⟩
  · intro id refused
    exact saveConversationWith_diverged refused
  · rcases saveConversationWith_log outcome with same | ⟨onDisk, read, part, _⟩
    · exact .inl same
    · exact .inr ⟨onDisk, read, part⟩

/-- Where the greeting of the sample runs is stored. -/
def greetingSettings : PromptSettings := ⟨greetingJson, ⟨fun _ => none, fun _ => ""⟩, 0⟩

/-- The answer of the sample turn. -/
def welcome : Message := .ofAssistant "hello"

/-- The JSON library writes the answer so. -/
def welcomeText : List Char :=
  "\x7b\"role\":\"assistant\",\"content\":[\x7b\"type\":\"text\",\"text\":\"hello\"\x7d]\x7d".toList

/-- The JSON library as far as the sample turn uses it. -/
def talkJson : Memory.SerdeJson where
  toText message := if message.role = .user then greetingText else welcomeText
  fromText text :=
    if text = greetingText then some greeting else if text = welcomeText then some welcome else none

theorem talkJson_writes_greeting : talkJson.WritesLine greeting where
  object := ⟨(greetingText.drop 1).dropLast, by decide⟩
  oneLine := by decide
  roundTrip := rfl
  noPrefix torn cut different := by
    have other : torn ≠ welcomeText := fun same => absurd (same ▸ cut) (by decide)
    exact (if_neg different).trans (if_neg other)

theorem talkJson_writes_welcome : talkJson.WritesLine welcome where
  object := ⟨(welcomeText.drop 1).dropLast, by decide⟩
  oneLine := by decide
  roundTrip := by decide
  noPrefix torn cut different := by
    have other : torn ≠ greetingText := fun same => absurd (same ▸ cut) (by decide)
    exact (if_neg other).trans (if_neg different)

def talkSettings : PromptSettings := ⟨talkJson, ⟨fun _ => none, fun _ => ""⟩, 0⟩

/-- The sample turn says hello once more. -/
def greetingInput : PromptInput :=
  ⟨[.text "hi"], ⟨"local", .openAiCompatible, "", "", "small", 5, 60, none, none, false, false⟩,
    [], "/", 0⟩

/-- The files of a conversation with one greeting. -/
def talkFiles : ConversationFiles :=
  ⟨some freshConversation.meta_, some (Utf8.encode (logLine talkJson greeting))⟩

def talkStart : PromptTurn := ⟨talkFiles, false, false, .idle⟩

/-- The append of the answer is torn after some characters. -/
def talkTorn : List PromptAction :=
  [.prepare 1 ⟨true, true, true⟩ greetingInput (.ok ⟨none, []⟩), .recordMeta 2 true,
    .recordUser 3 .whole true, .agent .proceed, .handle 4 .whole true,
    .agent (.reply (.ok ⟨⟨welcome, some .stop, none⟩, rfl⟩)),
    .handle 5 (.torn 7) false]

/-- The final save repairs the log. -/
def talkSaved : List PromptAction := [.handle 6 .whole true, .save 7 ⟨true, true, true⟩]

/-- The talk starts from a log that reads in whole. -/
theorem talkStart_whole : (promptMachine talkSettings).start talkStart := by
  refine ⟨rfl, rfl, [greeting], logLine talkJson greeting, rfl, ?_, ?_⟩
  · exact .inr (by decide)
  · decide

set_option maxRecDepth 4000 in
/-- The sample turn meets a failed write for its answer, and its log is repaired. -/
theorem log_follows_sample :
    ∃ s t : PromptTurn, (promptMachine talkSettings).exec talkStart talkTorn = some s ∧
    (promptMachine talkSettings).exec s talkSaved = some t ∧ s.writeFailed = true ∧
    t.stage.messages = some [greeting, greeting, welcome] ∧ t.stage.produced = [welcome] ∧
    (∃ logged, readMessageLog talkJson s.files = .ok logged ∧
        logged <+: [greeting, greeting, welcome]) ∧
    readMessageLog talkJson t.files = .ok [greeting, greeting, welcome] := by
  obtain ⟨s, t, torn, saved, failed, conversation, produced, success⟩ : ∃ s t,
      (promptMachine talkSettings).exec talkStart talkTorn = some s ∧
      (promptMachine talkSettings).exec s talkSaved = some t ∧ s.writeFailed = true ∧
      t.stage.messages = some [greeting, greeting, welcome] ∧ t.stage.produced = [welcome] ∧
      t.stage.success = some true := ⟨_, _, rfl, rfl, rfl, rfl, rfl, rfl⟩
  have tornPermitted : (promptMachine talkSettings).Permits (tornAtBoundary talkSettings) talkStart
      talkTorn := by
    refine Machine.permits_cons trivial rfl (Machine.permits_cons trivial rfl ?_)
    refine Machine.permits_cons (fun _ _ => trivial) rfl (Machine.permits_cons trivial rfl ?_)
    refine Machine.permits_cons (fun _ _ => trivial) rfl (Machine.permits_cons trivial rfl ?_)
    refine ⟨fun message next => ?_, fun _ _ => trivial⟩
    cases next
    exact (rfl : Utf8.isCharBoundary (welcomeText ++ ['\n']) 7 = true)
  have savedPermitted : (promptMachine talkSettings).Permits (tornAtBoundary talkSettings) s
      talkSaved :=
    ⟨fun _ _ => trivial, fun _ _ => ⟨trivial, fun _ _ => trivial⟩⟩
  have written : ∀ message ∈ [greeting, greeting, welcome],
      talkSettings.serde.WritesLine message := by
    refine List.forall_mem_cons.mpr ⟨talkJson_writes_greeting,
      List.forall_mem_cons.mpr ⟨talkJson_writes_greeting, ?_⟩⟩
    exact List.forall_mem_singleton.mpr talkJson_writes_welcome
  obtain ⟨-, reads, -, whole, -⟩ :=
    log_follows_turn talkStart_whole (Machine.exec_runs tornPermitted torn)
    (Machine.exec_runs savedPermitted saved) conversation written
  exact ⟨s, t, torn, saved, failed, conversation, produced, reads, whole success⟩

end Openheim.Runtime
