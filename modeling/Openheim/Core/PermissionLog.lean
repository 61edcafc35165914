import Openheim.Core.AgentSteps
import Openheim.Core.SessionPermissions

namespace Openheim

/-- The call that an event is about. -/
def GateEvent.about : GateEvent → Option CallId
  | .started call _ | .asked call _ | .answered call _ _ | .returned call _
  | .executed call _ => some call
  | .recorded _ _ => none

/-- The events about one call, with the latest first. -/
def callLog (call : CallId) (log : List GateEvent) : List GateEvent :=
  log.filter fun event => event.about = some call

/-- The sticky decision recorded last under a key. -/
def lastRecorded (key : String) : List GateEvent → Option PermissionDecision
  | [] => none
  | .recorded other decision :: rest => if other = key then some decision else lastRecorded key rest
  | _ :: rest => lastRecorded key rest

/-- The request that a call puts to the gate names its tool and its arguments. -/
def ToolUseBlock.request (block : ToolUseBlock) : PermissionRequest :=
  .new block.id block.name block.arguments

/-- What the gate knows without asking: the list of tools counts first, then
the decision recorded last. -/
def GateSettings.known (settings : GateSettings) (log : List GateEvent)
    (request : PermissionRequest) :
    Option PermissionDecision :=
  if request.toolName ∈ settings.alwaysAllowedTools then some .allowOnce
  else lastRecorded (settings.key request) log

/-- A call may run when its tool is listed, when the inner gate allowed this very call, or when it
answered before that calls with the same key are always allowed. -/
def Justified (settings : GateSettings) (log : List GateEvent) (call : CallId)
    (block : ToolUseBlock) : Prop :=
  block.name ∈ settings.alwaysAllowedTools ∨
    (∃ request decision, .answered call request decision ∈ log ∧ decision.isAllowed) ∨
    ∃ other request, .answered other request .allowAlways ∈ log ∧
      settings.key request = settings.key block.request

/-- What the log says about executions, rejections and answers without asking. -/
structure LogSound (settings : GateSettings) (log : List GateEvent) : Prop where
  executed : ∀ call block before, (.executed call block :: before) <:+ log →
    argumentsAreUsable settings.json block.arguments ∧ Justified settings before call block
  rejected : ∀ call block decision, .executed call block ∈ log →
    (.returned call decision ∈ log ∨ ∃ request, .answered call request decision ∈ log) →
      decision.isAllowed
  known : ∀ call request before decision, (.started call request :: before) <:+ log →
    settings.known before request = some decision →
    .returned call decision ∈ log ∧ (∀ other, .returned call other ∈ log → other = decision) ∧
      ∀ request, .asked call request ∉ log

/-- The shared map holds what the log recorded last, and only sticky answers of
the inner gate were recorded. -/
structure Remembered (settings : GateSettings) (approvals : String → Option PermissionDecision)
    (log : List GateEvent) : Prop where
  last : ∀ key, approvals key = lastRecorded key log
  sticky : ∀ key decision, .recorded key decision ∈ log → decision.isSticky ∧
    ∃ call request, .answered call request decision ∈ log ∧ settings.key request = key

/-- A settled check returned one decision, after asking or at once, and only an
allowed call was executed since. -/
structure Settled (settings : GateSettings) (log : List GateEvent) (call : CallId)
    (block : ToolUseBlock) (decision : PermissionDecision) : Prop where
  events : ∃ executions asks request, callLog call log = executions ++
    .returned call decision :: asks ++ [.started call request] ∧
    (asks = [] ∨ asks = [.answered call request decision, .asked call request]) ∧
    ∀ event ∈ executions, decision.isAllowed ∧ ∃ block, event = .executed call block
  allowed : decision.isAllowed → Justified settings log call block
  usable : argumentsAreUsable settings.json block.arguments

/-- How the events about a call agree with the state of its check. -/
def CallState (settings : GateSettings) (log : List GateEvent) (call : CallId)
    (block : ToolUseBlock) :
    Decision → CheckStage → Prop
  | .malformed, _ => callLog call log = []
  | .pending, .idle => argumentsAreUsable settings.json block.arguments ∧ callLog call log = []
  | .pending, .asking request => argumentsAreUsable settings.json block.arguments ∧
      settings.key request = settings.key block.request ∧
      callLog call log = [.asked call request, .started call request]
  | .pending, .answered request decision => argumentsAreUsable settings.json block.arguments ∧
      settings.key request = settings.key block.request ∧
      callLog call log = [.answered call request decision, .asked call request,
        .started call request]
  | .decided decision, _ => Settled settings log call block decision

/-- Every call whose permission is being settled agrees with the log. -/
def CallsAgree (settings : GateSettings) (log : List GateEvent) (number : Nat) (phase : Phase)
    (checks : Nat → CheckStage) : Prop :=
  ∀ iteration choice decisions, phase.decisions = some (iteration, choice, decisions) →
    ∀ index block decision, choice.message.toolCalls[index]? = some block →
      decisions[index]? = some decision →
        CallState settings log ⟨number, iteration, index⟩ block decision (checks index)

section Log
variable {settings : GateSettings} {log : List GateEvent} {call : CallId} {event : GateEvent}

theorem callLog_cons_same (same : event.about = some call) :
    callLog call (event :: log) = event :: callLog call log := by
  simp [callLog, same]

theorem callLog_cons_other (other : event.about ≠ some call) :
    callLog call (event :: log) = callLog call log := by
  simp [callLog, other]

/-- An event about a call is in the log when it is among the events about that call. -/
theorem mem_callLog (about : event.about = some call) : event ∈ callLog call log ↔ event ∈ log := by
  simp [callLog, about]

theorem lastRecorded_cons (about : event.about ≠ none) (key : String) :
    lastRecorded key (event :: log) = lastRecorded key log := by
  cases event with
  | recorded => exact absurd rfl about
  | _ => rfl

/-- More events keep a call justified. -/
theorem Justified.mono {block : ToolUseBlock} {more : List GateEvent}
    (justified : Justified settings log call block)
    (grows : log ⊆ more) : Justified settings more call block := by
  rcases justified with listed | ⟨request, decision, answered, allowed⟩ | ⟨other, request,
    answered, same⟩
  · exact .inl listed
  · exact .inr (.inl ⟨request, decision, grows answered, allowed⟩)
  · exact .inr (.inr ⟨other, request, grows answered, same⟩)

/-- An event about another call leaves the state of a call as it is. -/
theorem CallState.cons_other {block : ToolUseBlock} {decision : Decision} {stage : CheckStage}
    (state : CallState settings log call block decision stage) (other : event.about ≠ some call) :
    CallState settings (event :: log) call block decision stage := by
  cases decision with
  | malformed =>
      rw [CallState, callLog_cons_other other]
      exact state
  | pending =>
      cases stage with
      | idle => exact ⟨state.1, (callLog_cons_other other).trans state.2⟩
      | asking request => exact ⟨state.1, state.2.1, (callLog_cons_other other).trans state.2.2⟩
      | answered request decision =>
        exact ⟨state.1, state.2.1, (callLog_cons_other other).trans state.2.2⟩
  | decided decision =>
      refine ⟨?_, fun allowed => (state.allowed allowed).mono (List.subset_cons_self _ _),
        state.usable⟩
      rw [callLog_cons_other other]
      exact state.events

/-- An event about a call that is neither settled nor executed keeps the log sound. -/
theorem LogSound.cons (sound : LogSound settings log)
    (unknown : ∀ call request, event = .started call request → settings.known log request = none)
    (unsettled : ∀ call, event.about = some call → ∀ decision, .returned call decision ∉ log)
    (unexecuted : ∀ call, event.about = some call → ∀ block, .executed call block ∉ log)
    (notExecuted : ∀ call block, event ≠ .executed call block) :
    LogSound settings (event :: log) where
  executed call block before suffix := by
    rcases List.suffix_cons_iff.mp suffix with whole | old
    · exact absurd (List.cons.inj whole).1.symm (notExecuted call block)
    · exact sound.executed call block before old
  rejected call block decision executed answer := by
    have old : .executed call block ∈ log := by
      rcases List.mem_cons.mp executed with new | old
      · exact absurd new.symm (notExecuted call block)
      · exact old
    refine sound.rejected call block decision old ?_
    rcases answer with returned | ⟨request, answered⟩
    · rcases List.mem_cons.mp returned with rfl | returned
      · exact absurd old (unexecuted call rfl block)
      · exact .inl returned
    · rcases List.mem_cons.mp answered with rfl | answered
      · exact absurd old (unexecuted call rfl block)
      · exact .inr ⟨request, answered⟩
  known call request before decision suffix knew := by
    rcases List.suffix_cons_iff.mp suffix with whole | old
    · obtain ⟨rfl, rfl⟩ := List.cons.inj whole
      rw [unknown call request rfl] at knew
      cases knew
    · obtain ⟨returned, only, unasked⟩ := sound.known call request before decision old knew
      refine ⟨List.mem_cons_of_mem _ returned, fun other member => ?_, fun request member => ?_⟩
      · rcases List.mem_cons.mp member with rfl | member
        · exact absurd returned (unsettled call rfl decision)
        · exact only other member
      · rcases List.mem_cons.mp member with rfl | member
        · exact absurd returned (unsettled call rfl decision)
        · exact unasked request member

/-- A check that is answered at once returns what the gate knows. -/
theorem LogSound.answerKnown (sound : LogSound settings log) {request : PermissionRequest}
    {decision : PermissionDecision} (fresh : callLog call log = [])
    (knew : settings.known log request = some decision) :
    LogSound settings (.returned call decision :: .started call request :: log) := by
  have absent : ∀ event : GateEvent, event.about = some call → event ∉ log := by
    intro event about member
    have inside := (mem_callLog about).mpr member
    simp [fresh] at inside
  constructor
  · intro other block before suffix
    rcases List.suffix_cons_iff.mp suffix with whole | suffix
    · cases (List.cons.inj whole).1
    · rcases List.suffix_cons_iff.mp suffix with whole | old
      · cases (List.cons.inj whole).1
      · exact sound.executed other block before old
  · intro other block given executed answer
    have old : .executed other block ∈ log := by simpa using executed
    refine sound.rejected other block given old ?_
    rcases answer with returned | ⟨request, answered⟩
    · rcases List.mem_cons.mp returned with new | returned
      · cases new
        exact absurd old (absent _ rfl)
      · exact .inl (by simpa using returned)
    · exact .inr ⟨request, by simpa using answered⟩
  · intro other asked before given suffix known
    rcases List.suffix_cons_iff.mp suffix with whole | suffix
    · cases (List.cons.inj whole).1
    · rcases List.suffix_cons_iff.mp suffix with whole | old
      · cases whole
        obtain rfl : decision = given := Option.some.inj (knew.symm.trans known)
        refine ⟨List.mem_cons_self, fun value member => ?_, fun request member => ?_⟩
        · rcases List.mem_cons.mp member with new | member
          · cases new
            rfl
          · exact absurd (by simpa using member) (absent (.returned call value) rfl)
        · exact absurd (by simpa using member) (absent (.asked call request) rfl)
      · obtain ⟨returned, only, unasked⟩ := sound.known other asked before given old known
        refine ⟨by simp [returned], fun value member => ?_, fun request member => ?_⟩
        · rcases List.mem_cons.mp member with new | member
          · cases new
            exact absurd returned (absent _ rfl)
          · exact only value (by simpa using member)
        · exact unasked request (by simpa using member)

/-- A check that the gate knows nothing about asks. -/
theorem LogSound.ask (sound : LogSound settings log) {request : PermissionRequest}
    (fresh : callLog call log = []) (unknown : settings.known log request = none) :
    LogSound settings (.asked call request :: .started call request :: log) := by
  have absent : ∀ event : GateEvent, event.about = some call → event ∉ log := by
    intro event about member
    have inside := (mem_callLog about).mpr member
    simp [fresh] at inside
  have begun : LogSound settings (.started call request :: log) := by
    apply sound.cons
    · intro other asked same
      cases same
      exact unknown
    · intro other about decision
      exact absent _ about.symm
    · intro other about block
      exact absent _ about.symm
    · simp
  apply begun.cons
  · simp
  · intro other about decision
    simpa using absent (.returned other decision) about.symm
  · intro other about block
    simpa using absent (.executed other block) about.symm
  · simp

/-- The inner gate answers a check that asked it. -/
theorem LogSound.answer (sound : LogSound settings log) {asked request : PermissionRequest}
    {decision : PermissionDecision}
    (asking : callLog call log = [.asked call asked, .started call asked]) :
    LogSound settings (.answered call request decision :: log) := by
  have absent : ∀ event : GateEvent, event.about = some call → event ∉ callLog call log →
      event ∉ log :=
    fun event about missing member => missing ((mem_callLog about).mpr member)
  apply sound.cons
  · simp
  · intro other about decision
    cases about
    exact absent _ rfl (by simp [asking])
  · intro other about block
    cases about
    exact absent _ rfl (by simp [asking])
  · simp

/-- A check returns what the inner gate answered. -/
theorem LogSound.return (sound : LogSound settings log) {request : PermissionRequest}
    {decision : PermissionDecision}
    (answered : callLog call log = [.answered call request decision, .asked call request,
        .started call request]) :
    LogSound settings (.returned call decision :: log) := by
  have absent : ∀ event : GateEvent, event.about = some call → event ∉ callLog call log →
      event ∉ log :=
    fun event about missing member => missing ((mem_callLog about).mpr member)
  apply sound.cons
  · simp
  · intro other about decision
    cases about
    exact absent _ rfl (by simp [answered])
  · intro other about block
    cases about
    exact absent _ rfl (by simp [answered])
  · simp

/-- A settled call that was allowed may be executed. -/
theorem LogSound.execute (sound : LogSound settings log) {block : ToolUseBlock}
    {decision : PermissionDecision}
    (settled : Settled settings log call block decision) (allowed : decision.isAllowed) :
    LogSound settings (.executed call block :: log) where
  executed other ran before suffix := by
    rcases List.suffix_cons_iff.mp suffix with whole | old
    · cases whole
      exact ⟨settled.usable, settled.allowed allowed⟩
    · exact sound.executed other ran before old
  rejected other ran given executed answer := by
    have answerOld : .returned other given ∈ log ∨ ∃ request,
        .answered other request given ∈ log := by
      simpa using answer
    rcases List.mem_cons.mp executed with new | old
    · cases new
      obtain ⟨executions, asks, request, events, asked, ran⟩ := settled.events
      have same : given = decision := by
        rcases answerOld with returned | ⟨request, answered⟩
        · have inside := (mem_callLog rfl).mpr returned
          rw [events] at inside
          rcases asked with rfl | rfl <;> simp at inside <;> grind
        · have inside := (mem_callLog rfl).mpr answered
          rw [events] at inside
          rcases asked with rfl | rfl <;> simp at inside <;> grind
      rw [same]
      exact allowed
    · exact sound.rejected other ran given old answerOld
  known other asked before given suffix knew := by
    rcases List.suffix_cons_iff.mp suffix with whole | old
    · cases (List.cons.inj whole).1
    · obtain ⟨returned, only, unasked⟩ := sound.known other asked before given old knew
      exact ⟨by simp [returned], fun value member => only value (by simpa using member),
        fun request member => unasked request (by simpa using member)⟩

/-- A check that is answered at once is settled. -/
theorem Settled.atOnce {block : ToolUseBlock} {decision : PermissionDecision}
    {request : PermissionRequest}
    (fresh : callLog call log = []) (usable : argumentsAreUsable settings.json block.arguments)
    (allowed : decision.isAllowed → Justified settings log call block) :
    Settled settings (.returned call decision :: .started call request :: log) call block
      decision where
  events :=
    ⟨[], [], request, by rw [callLog_cons_same rfl, callLog_cons_same rfl, fresh]; rfl,
        .inl rfl, by simp⟩
  allowed given := (allowed given).mono fun _ member => by simp [member]
  usable := usable

/-- A check that returns the answer of the inner gate is settled. -/
theorem Settled.asked {block : ToolUseBlock} {decision : PermissionDecision}
    {request : PermissionRequest}
    (asked : callLog call log = [.answered call request decision, .asked call request,
        .started call request])
    (usable : argumentsAreUsable settings.json block.arguments) :
    Settled settings (.returned call decision :: log) call block decision where
  events := ⟨[], _, request, by rw [callLog_cons_same rfl, asked]; rfl, .inr rfl, by simp⟩
  allowed given := by
    have answered : .answered call request decision ∈ log :=
      (mem_callLog rfl).mp (by rw [asked]; simp)
    exact .inr (.inl ⟨request, decision, List.mem_cons_of_mem _ answered, given⟩)
  usable := usable

/-- An execution leaves the decision as it is. -/
theorem Settled.execute {block : ToolUseBlock} {decision : PermissionDecision}
    (settled : Settled settings log call block decision) (allowed : decision.isAllowed) :
    Settled settings (.executed call block :: log) call block decision := by
  obtain ⟨executions, asks, request, events, asked, ran⟩ := settled.events
  refine ⟨⟨.executed call block :: executions, asks, request, ?_, asked, ?_⟩,
    fun _ => (settled.allowed allowed).mono (List.subset_cons_self _ _), settled.usable⟩
  · rw [callLog_cons_same rfl, events]
    rfl
  · intro event member
    rcases List.mem_cons.mp member with rfl | member
    · exact ⟨allowed, block, rfl⟩
    · exact ran event member

/-- Only a recorded decision is remembered. -/
theorem lastRecorded_mem {key : String} {decision : PermissionDecision}
    (last : lastRecorded key log = some decision) :
    .recorded key decision ∈ log := by
  induction log with
  | nil => cases last
  | cons event rest ih =>
      cases event with
      | recorded other value =>
          simp only [lastRecorded] at last
          split at last
          · rename_i same
            cases last
            rw [same]
            exact List.mem_cons_self
          · exact List.mem_cons_of_mem _ (ih last)
      | _ => exact List.mem_cons_of_mem _ (ih last)

/-- An event about a call changes nothing that is remembered. -/
theorem Remembered.cons {approvals : String → Option PermissionDecision}
    (remembered : Remembered settings approvals log)
    (about : event.about ≠ none) : Remembered settings approvals (event :: log) where
  last key := (remembered.last key).trans (lastRecorded_cons about key).symm
  sticky key decision member := by
    rcases List.mem_cons.mp member with rfl | member
    · exact absurd rfl about
    · obtain ⟨sticky, call, request, answered, same⟩ := remembered.sticky key decision member
      exact ⟨sticky, call, request, List.mem_cons_of_mem _ answered, same⟩

/-- A recorded decision replaces the last one under its key. -/
theorem Remembered.record {approvals : String → Option PermissionDecision}
    (remembered : Remembered settings approvals log) {request : PermissionRequest}
    {decision : PermissionDecision}
    (sticky : decision.isSticky) (answered : .answered call request decision ∈ log) :
    Remembered settings (Function.update approvals (settings.key request) (some decision))
      (.recorded (settings.key request) decision :: log) where
  last key := by
    by_cases same : settings.key request = key
    · subst same
      simp [lastRecorded]
    · rw [Function.update_of_ne (Ne.symm same), lastRecorded, if_neg same]
      exact remembered.last key
  sticky key value member := by
    rcases List.mem_cons.mp member with new | member
    · cases new
      exact ⟨sticky, call, request, List.mem_cons_of_mem _ answered, rfl⟩
    · obtain ⟨old, other, asked, earlier, same⟩ := remembered.sticky key value member
      exact ⟨old, other, asked, List.mem_cons_of_mem _ earlier, same⟩

theorem CallState.append_other {block : ToolUseBlock} {decision : Decision} {stage : CheckStage}
    (state : CallState settings log call block decision stage) {events : List GateEvent}
    (others : ∀ event ∈ events, event.about ≠ some call) :
    CallState settings (events ++ log) call block decision stage := by
  induction events with
  | nil => exact state
  | cons event rest ih =>
      exact (ih fun later member => others later (List.mem_cons_of_mem _ member)).cons_other
        (others event List.mem_cons_self)

end Log

section Calls
variable {settings : GateSettings} {log events : List GateEvent} {number : Nat} {old new : Phase}
  {checks after : Nat → CheckStage}

/-- Events about the calls of other runs leave the calls of a run as they are. -/
theorem CallsAgree.append_other (agree : CallsAgree settings log number old checks)
    (others : ∀ event ∈ events, ∀ call, event.about = some call → call.run ≠ number) :
    CallsAgree settings (events ++ log) number old checks := by
  intro iteration choice decisions phase index block decision called decided
  refine (agree iteration choice decisions phase index block decision called decided).append_other
    ?_
  intro event member about
  exact others event member _ about rfl

/-- A step of the loop asks about calls that no event is about yet, or
keeps the calls as they are. -/
theorem CallsAgree.step (agree : CallsAgree settings log number old checks)
    (step : PhaseStep settings.json old new)
    (fresh : ∀ iteration choice, old = .announced iteration choice →
      ∀ index, callLog ⟨number, iteration, index⟩ log = []) :
    CallsAgree settings log number new (PermissionState.checksAfter checks old new) := by
  cases step with
  | stay =>
      cases old with
      | announced => exact agree
      | _ => exact agree
  | dispatch => exact agree
  | advance => exact agree
  | ask iteration choice =>
      intro current reply decisions phase index block decision called decided
      cases phase
      have silent := fresh iteration choice rfl index
      rw [List.getElem?_map, called, Option.map_some, Option.some.injEq] at decided
      split at decided
      · rename_i usable
        subst decided
        exact ⟨usable, silent⟩
      · subst decided
        exact silent
  | _ =>
      intro current reply decisions phase
      cases phase

/-- A step that concerns one call leaves the other calls of its reply as they are. -/
theorem CallsAgree.setCall {iteration : Nat} {choice : Reply} {decisions settled : List Decision}
    (agree : CallsAgree settings log number old checks) (index : Nat)
    (before : old.decisions = some (iteration, choice, decisions))
    (phase : new.decisions = some (iteration, choice, settled))
    (others : ∀ other, other ≠ index → settled[other]? = decisions[other]? ∧
      after other = checks other)
    (about : ∀ event ∈ events, ∀ call, event.about = some call → call = ⟨number, iteration, index⟩)
    (own : ∀ block decision, choice.message.toolCalls[index]? = some block →
      settled[index]? = some decision →
      CallState settings (events ++ log) ⟨number, iteration, index⟩ block decision (after index)) :
    CallsAgree settings (events ++ log) number new after := by
  intro current reply now inside other block decision called decided
  obtain ⟨rfl, rfl, rfl⟩ : iteration = current ∧ choice = reply ∧ settled = now := by
    simpa using phase.symm.trans inside
  by_cases same : other = index
  · rw [same] at called decided ⊢
    exact own block decision called decided
  · obtain ⟨kept, stage⟩ := others other same
    rw [kept] at decided
    rw [stage]
    refine (agree iteration choice decisions before other block decision called
      decided).append_other ?_
    intro event member mine
    exact same (congrArg CallId.index (about event member _ mine))

end Calls

end Openheim
