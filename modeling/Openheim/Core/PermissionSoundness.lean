import Openheim.Core.PermissionLog

namespace Openheim

/-- The invariant of the session: the log is sound, and the runs and
the shared map agree with it. -/
structure PermissionInvariant (settings : GateSettings) (s : PermissionState) : Prop where
  sound : LogSound settings s.log
  remembered : Remembered settings s.approvals s.log
  past : ∀ event ∈ s.log, ∀ call, event.about = some call →
    ∃ run, s.runs[call.run]? = some run ∧ run.agent.phase.mayHaveChecked call.iteration
  calls : ∀ number run, s.runs[number]? = some run →
    CallsAgree settings s.log number run.agent.phase run.checks

section Steps
variable {settings : GateSettings} {s t : PermissionState}

theorem PermissionState.ready_eq {number : Nat} {run : SessionRun}
    (ready : s.ready number = some run) :
    s.runs[number]? = some run := by
  unfold PermissionState.ready at ready
  split at ready
  · cases ready
  · rename_i found
    split at ready
    · cases ready
      exact found
    · cases ready

/-- A subagent forwards the tool and the arguments of a request. -/
theorem key_forward (settings : GateSettings) (gate : Gate) (request : PermissionRequest) :
    (gate.forward request).toolName = request.toolName ∧
      settings.key (gate.forward request) = settings.key request := by
  induction gate generalizing request with
  | remembering => exact ⟨rfl, rfl⟩
  | subagent parent name ih => exact ih (request.fromSubagent name)

/-- One run takes a step and logs events about its own current calls. -/
theorem PermissionInvariant.setRun (inv : PermissionInvariant settings s) {number : Nat}
    {old : SessionRun}
    (found : s.runs[number]? = some old) (run : SessionRun) (events : List GateEvent)
    {approvals : String → Option PermissionDecision} (sound : LogSound settings (events ++ s.log))
    (remembered : Remembered settings approvals (events ++ s.log))
    (later : ∀ iteration, old.agent.phase.mayHaveChecked iteration →
      run.agent.phase.mayHaveChecked iteration)
    (about : ∀ event ∈ events, ∀ call, event.about = some call →
      call.run = number ∧ run.agent.phase.mayHaveChecked call.iteration)
    (own : CallsAgree settings (events ++ s.log) number run.agent.phase run.checks) :
    PermissionInvariant settings ⟨approvals, s.runs.set number run, events ++ s.log⟩ := by
  obtain ⟨bound, -⟩ := List.getElem?_eq_some_iff.mp found
  have lookup : ∀ other, (s.runs.set number run)[other]? =
      if number = other then some run else s.runs[other]? := by
    intro other
    rw [List.getElem?_set]
    by_cases same : number = other
    · subst same
      simp [bound]
    · simp [same]
  refine ⟨sound, remembered, ?_, ?_⟩
  · intro event member call mine
    rw [lookup]
    rcases List.mem_append.mp member with new | past
    · obtain ⟨same, reached⟩ := about event new call mine
      exact ⟨run, by rw [if_pos same.symm], reached⟩
    · obtain ⟨before, present, reached⟩ := inv.past event past call mine
      by_cases same : number = call.run
      · rw [← same, found, Option.some.injEq] at present
        exact ⟨run, by rw [if_pos same], later _ (present ▸ reached)⟩
      · exact ⟨before, by rw [if_neg same]; exact present, reached⟩
  · intro other present inside
    rw [lookup] at inside
    split at inside
    · rename_i same
      cases inside
      exact same ▸ own
    · rename_i different
      refine (inv.calls other present inside).append_other ?_
      intro event member call mine same
      exact different ((about event member call mine).1.symm.trans same)

/-- One call of a run changes its state, and every new event is about this call or about none. -/
theorem PermissionInvariant.setCall (inv : PermissionInvariant settings s) {number iteration : Nat}
    {old : SessionRun} {choice : Reply} {decisions settled : List Decision}
    (found : s.runs[number]? = some old)
    (index : Nat) (before : old.agent.phase.decisions = some (iteration, choice, decisions))
    (run : SessionRun) (after : run.agent.phase.decisions = some (iteration, choice, settled))
    (others : ∀ other, other ≠ index → settled[other]? = decisions[other]? ∧
      run.checks other = old.checks other)
    (events : List GateEvent) {approvals : String → Option PermissionDecision}
    (about : ∀ event ∈ events, ∀ call, event.about = some call → call = ⟨number, iteration, index⟩)
    (sound : LogSound settings (events ++ s.log))
    (remembered : Remembered settings approvals (events ++ s.log))
    (own : ∀ block decision, choice.message.toolCalls[index]? = some block →
      settled[index]? = some decision →
      CallState settings (events ++ s.log) ⟨number, iteration, index⟩ block decision
        (run.checks index)) :
    PermissionInvariant settings ⟨approvals, s.runs.set number run, events ++ s.log⟩ := by
  refine inv.setRun found run events sound remembered ?_ ?_ ?_
  · intro past reached
    exact (Phase.mayHaveChecked_iff after).mpr ((Phase.mayHaveChecked_iff before).mp reached)
  · intro event member call mine
    rw [about event member call mine]
    exact ⟨rfl, (Phase.mayHaveChecked_iff after).mpr (le_refl iteration)⟩
  · exact (inv.calls number old found).setCall index before after others about own

/-- No event is about a call before its loop asks about it. -/
theorem PermissionInvariant.fresh (inv : PermissionInvariant settings s) {number iteration : Nat}
    {choice : Reply}
    {run : SessionRun} (found : s.runs[number]? = some run)
    (phase : run.agent.phase = .announced iteration choice)
    (index : Nat) : callLog ⟨number, iteration, index⟩ s.log = [] := by
  rw [callLog, List.filter_eq_nil_iff]
  intro event member about
  obtain ⟨other, present, reached⟩ := inv.past event member _ (by simpa using about)
  rw [found, Option.some.injEq] at present
  rw [← present, phase] at reached
  exact lt_irrefl _ reached

/-- A new run has no calls. -/
theorem PermissionInvariant.addRun (inv : PermissionInvariant settings s) {agent : AgentRun}
    (begins : agent.phase = .iterating 0) (gate : Gate) (parent : Option CallId) (turn : Nat) :
    PermissionInvariant settings (s.addRun agent gate parent turn) := by
  refine ⟨inv.sound, inv.remembered, ?_, ?_⟩
  · intro event member call about
    obtain ⟨run, found, reached⟩ := inv.past event member call about
    obtain ⟨bound, -⟩ := List.getElem?_eq_some_iff.mp found
    exact ⟨run, (List.getElem?_append_left bound).trans found, reached⟩
  · intro number run found
    rcases Nat.lt_or_ge number s.runs.length with old | new
    · exact inv.calls number run ((List.getElem?_append_left old).symm.trans found)
    · have last : run.agent.phase = .iterating 0 := by
        simp only [PermissionState.addRun, List.getElem?_append_right new,
          List.getElem?_singleton] at found
        split at found
        · cases found
          exact begins
        · cases found
      intro iteration choice decisions phase
      rw [last] at phase
      cases phase

/-- The token of a turn changes no phase and no check. -/
theorem PermissionInvariant.cancel (inv : PermissionInvariant settings s) (turn : Nat) :
    PermissionInvariant settings (s.cancel turn) := by
  have lookup : ∀ (number : Nat) (run : SessionRun), (s.cancel turn).runs[number]? = some run →
      ∃ old, s.runs[number]? = some old ∧ old.agent.phase = run.agent.phase ∧
          old.checks = run.checks := by
    intro number run found
    simp only [PermissionState.cancel, List.getElem?_map, Option.map_eq_some_iff] at found
    obtain ⟨old, present, rfl⟩ := found
    refine ⟨old, present, ?_, ?_⟩ <;> split <;> rfl
  refine ⟨inv.sound, inv.remembered, ?_, ?_⟩
  · intro event member call about
    obtain ⟨old, found, reached⟩ := inv.past event member call about
    refine ⟨_, by simp only [PermissionState.cancel, List.getElem?_map, found,
      Option.map_some]; rfl, ?_⟩
    split <;> exact reached
  · intro number run found
    obtain ⟨old, present, phase, checks⟩ := lookup number run found
    rw [← phase, ← checks]
    exact inv.calls number old present

theorem PermissionInvariant.stepAgent (inv : PermissionInvariant settings s) {number : Nat}
    {action : AgentAction}
    (stepped : s.stepAgent settings number action = some t) : PermissionInvariant settings t := by
  have split_action : (∀ index decision, action ≠ .decide index decision) ∧ ∃ run agent,
      s.ready number = some run ∧ run.agent.step settings.json action = some agent ∧
          t = s.setRun number { run with
        agent, checks := PermissionState.checksAfter run.checks run.agent.phase agent.phase } := by
    unfold PermissionState.stepAgent at stepped
    split at stepped
    · cases stepped
    · cases stepped
    · cases stepped
    · rename_i unanswered _
      obtain ⟨run, ready, moved⟩ := Option.bind_eq_some_iff.mp stepped
      obtain ⟨agent, advanced, rfl⟩ := Option.map_eq_some_iff.mp moved
      exact ⟨fun index decision => unanswered index decision, run, agent, ready, advanced, rfl⟩
  obtain ⟨unanswered, run, agent, ready, advanced, rfl⟩ := split_action
  have found := PermissionState.ready_eq ready
  have phase := AgentRun.step_phase advanced unanswered
  exact inv.setRun found _ [] inv.sound inv.remembered (fun _ => phase.mayHaveChecked) (by simp)
    ((inv.calls number run found).step phase fun _ _ announced => inv.fresh found announced)

/-- An executed call was allowed when its check returned. -/
theorem PermissionInvariant.execute (inv : PermissionInvariant settings s) {number index : Nat}
    (stepped : s.execute number index = some t) : PermissionInvariant settings t := by
  unfold PermissionState.execute at stepped
  split at stepped
  · cases stepped
  · rename_i run ready
    split at stepped
    · rename_i iteration choice decisions progress phase
      obtain ⟨block, called, moved⟩ := Option.bind_eq_some_iff.mp stepped
      obtain ⟨agent, executed, rfl⟩ := Option.map_eq_some_iff.mp moved
      obtain ⟨_, _, _, _, decision, before, decided, allowed, after⟩ := AgentRun.execute_eq executed
      cases phase.symm.trans before
      have found := PermissionState.ready_eq ready
      have settled : Settled settings s.log ⟨number, iteration, index⟩ block decision :=
        inv.calls number run found iteration choice decisions (by rw [phase]; rfl) index block _
          called decided
      refine inv.setCall found index (by rw [phase]; rfl) { run with agent } (by rw [after]; rfl)
        (fun _ _ => ⟨rfl, rfl⟩) [.executed ⟨number, iteration, index⟩ block] ?_
          (inv.sound.execute settled allowed)
        (inv.remembered.cons (by simp [GateEvent.about])) ?_
      · intro event member call about
        cases List.mem_singleton.mp member
        cases about
        rfl
      · intro other verdict calledAgain again
        cases called.symm.trans calledAgain
        cases decided.symm.trans again
        exact settled.execute allowed
    · cases stepped

/-- This is every start of a check: it is answered from the list or from
memory, or it asks the inner gate. -/
theorem PermissionState.check_eq {number index : Nat}
    (stepped : s.check settings number index = some t) :
    ∃ run iteration choice decisions block request, s.runs[number]? = some run ∧
      run.agent.phase = .deciding iteration choice decisions ∧
      choice.message.toolCalls[index]? = some block ∧
      decisions[index]? = some .pending ∧ run.checks index = .idle ∧ request.toolName = block.name ∧
      settings.key request = settings.key block.request ∧
      ((∃ decision, (request.toolName ∈ settings.alwaysAllowedTools ∧ decision = .allowOnce ∨
          request.toolName ∉ settings.alwaysAllowedTools ∧
          s.approvals (settings.key request) = some decision) ∧
          (s.note (.started ⟨number, iteration, index⟩ request)).returnDecision number run
            ⟨number, iteration, index⟩ decision = some t) ∨
        request.toolName ∉ settings.alwaysAllowedTools ∧ s.approvals (settings.key request) = none ∧
          t = ((s.note (.started ⟨number, iteration, index⟩ request)).setRun number { run with
            checks := Function.update run.checks index (.asking request) }).note
              (.asked ⟨number, iteration, index⟩ request)) := by
  unfold PermissionState.check at stepped
  split at stepped
  · cases stepped
  · rename_i run ready
    split at stepped
    · rename_i iteration choice decisions phase
      split at stepped
      · rename_i block called pending idle
        obtain ⟨tool, key⟩ := key_forward settings run.gate block.request
        refine ⟨run, iteration, choice, decisions, block, _, ready_eq ready, phase, called, pending,
          idle, tool, key, ?_⟩
        dsimp only at stepped
        split at stepped
        · rename_i listed
          exact .inl ⟨_, .inl ⟨listed, rfl⟩, stepped⟩
        · rename_i unlisted
          split at stepped
          · rename_i remembered last
            exact .inl ⟨_, .inr ⟨unlisted, last⟩, stepped⟩
          · rename_i unknown
            cases stepped
            exact .inr ⟨unlisted, unknown, rfl⟩
      · cases stepped
    · cases stepped

/-- A remembered decision that allows a call was given for every call with the same key. -/
theorem Remembered.justified {approvals : String → Option PermissionDecision} {log : List GateEvent}
    (remembered : Remembered settings approvals log) {request : PermissionRequest}
    {decision : PermissionDecision}
    (last : approvals (settings.key request) = some decision) (allowed : decision.isAllowed)
    (call : CallId)
    {block : ToolUseBlock} (key : settings.key request = settings.key block.request) :
    Justified settings log call block := by
  rw [remembered.last] at last
  obtain ⟨sticky, other, asked, answered, same⟩ := remembered.sticky _ _ (lastRecorded_mem last)
  have always : decision = .allowAlways := by
    cases decision with
    | allowAlways => rfl
    | allowOnce => cases sticky
    | rejectOnce => cases allowed
    | rejectAlways => cases allowed
  rw [always] at answered
  exact .inr (.inr ⟨other, asked, answered, same.trans key⟩)

/-- The check returns a decision, and every new event is about its call or about none. -/
theorem PermissionInvariant.returnDecision (inv : PermissionInvariant settings s)
    {number iteration index : Nat}
    {run : SessionRun} {choice : Reply} {decisions : List Decision} {block : ToolUseBlock}
    {decision : PermissionDecision} (found : s.runs[number]? = some run)
    (phase : run.agent.phase = .deciding iteration choice decisions)
    (called : choice.message.toolCalls[index]? = some block)
    (pending : decisions[index]? = some .pending)
    (events : List GateEvent) (about : ∀ event ∈ events, ∀ call, event.about = some call →
      call = ⟨number, iteration, index⟩)
    {approvals : String → Option PermissionDecision}
    (returned : (⟨approvals, s.runs, events ++ s.log⟩ : PermissionState).returnDecision number run
      ⟨number, iteration, index⟩ decision = some t)
    (sound : LogSound settings (.returned ⟨number, iteration, index⟩ decision :: (events ++ s.log)))
    (remembered : Remembered settings approvals (events ++ s.log))
    (settled : Settled settings (.returned ⟨number, iteration, index⟩ decision :: (events ++ s.log))
      ⟨number, iteration, index⟩ block decision) : PermissionInvariant settings t := by
  obtain ⟨agent, answered, rfl⟩ := Option.map_eq_some_iff.mp returned
  obtain ⟨_, _, _, before, _, after⟩ := AgentRun.decide_eq answered
  cases phase.symm.trans before
  refine inv.setCall found index (by rw [phase]; rfl) { run with agent, busy := false }
    (by rw [after]; rfl) ?_
    (.returned ⟨number, iteration, index⟩ decision :: events) ?_ sound
      (remembered.cons (by simp [GateEvent.about])) ?_
  · intro other different
    exact ⟨List.getElem?_set_ne (Ne.symm different), rfl⟩
  · intro event member call mine
    rcases List.mem_cons.mp member with rfl | member
    · exact (Option.some.inj mine).symm
    · exact about event member call mine
  · intro other verdict calledAgain now
    cases called.symm.trans calledAgain
    have bound : index < decisions.length := (List.getElem?_eq_some_iff.mp pending).1
    rw [List.getElem?_set_self bound, Option.some.injEq] at now
    rw [← now]
    exact settled

/-- A check starts for a call that no event is about yet. -/
theorem PermissionInvariant.check (inv : PermissionInvariant settings s) {number index : Nat}
    (stepped : s.check settings number index = some t) : PermissionInvariant settings t := by
  obtain ⟨run, iteration, choice, decisions, block, request, found, phase, called, pending, idle,
      tool, key, cases⟩ :=
    PermissionState.check_eq stepped
  have state :=
    inv.calls number run found iteration choice decisions (by rw [phase]; rfl) index block _
      called pending
  rw [idle] at state
  obtain ⟨usable, fresh⟩ := state
  have about : ∀ event : GateEvent, event ∈ [GateEvent.started ⟨number, iteration, index⟩ request] →
      ∀ call, event.about = some call → call = ⟨number, iteration, index⟩ := by
    intro event member call mine
    cases List.mem_singleton.mp member
    exact (Option.some.inj mine).symm
  have remembered :
      Remembered settings s.approvals (.started ⟨number, iteration, index⟩ request :: s.log) :=
    inv.remembered.cons (by simp [GateEvent.about])
  rcases cases with ⟨decision, known, returned⟩ | ⟨unlisted, unknown, rfl⟩
  · have knew : settings.known s.log request = some decision := by
      rcases known with ⟨listed, rfl⟩ | ⟨unlisted, last⟩
      · simp [GateSettings.known, listed]
      · rw [GateSettings.known, if_neg unlisted, ← inv.remembered.last, last]
    have justified : decision.isAllowed →
        Justified settings s.log ⟨number, iteration, index⟩ block := by
      intro allowed
      rcases known with ⟨listed, -⟩ | ⟨-, last⟩
      · rw [tool] at listed
        exact .inl listed
      · exact inv.remembered.justified last allowed _ key
    exact inv.returnDecision found phase called pending [_] about returned
      (inv.sound.answerKnown fresh knew) remembered
      (.atOnce fresh usable justified)
  · rw [inv.remembered.last] at unknown
    have unknown : settings.known s.log request = none := by
      rw [GateSettings.known, if_neg unlisted, unknown]
    refine inv.setCall found index (by rw [phase]; rfl) _ (by rw [phase]; rfl) ?_
      [.asked ⟨number, iteration, index⟩ request, .started ⟨number, iteration, index⟩ request] ?_
      (inv.sound.ask fresh unknown) (remembered.cons (by simp [GateEvent.about])) ?_
    · intro other different
      exact ⟨rfl, Function.update_of_ne different _ _⟩
    · simp [GateEvent.about]
    · intro other verdict calledAgain again
      cases called.symm.trans calledAgain
      cases pending.symm.trans again
      dsimp only
      rw [Function.update_self]
      exact ⟨usable, key,
        (callLog_cons_same rfl).trans
        (congrArg _ ((callLog_cons_same rfl).trans (congrArg _ fresh)))⟩

/-- The inner gate answers a check that asked it. -/
theorem PermissionInvariant.answer (inv : PermissionInvariant settings s) {number index : Nat}
    {decision : PermissionDecision} (stepped : s.answer number index decision = some t) :
    PermissionInvariant settings t := by
  unfold PermissionState.answer at stepped
  split at stepped
  · cases stepped
  · rename_i run ready
    split at stepped
    · rename_i iteration choice decisions phase
      split at stepped
      · rename_i block request called pending asking
        cases stepped
        have found := PermissionState.ready_eq ready
        have state :=
          inv.calls number run found iteration choice decisions (by rw [phase]; rfl) index block _
            called pending
        rw [asking] at state
        obtain ⟨usable, key, asked⟩ := state
        refine inv.setCall found index (by rw [phase]; rfl) _ (by rw [phase]; rfl) ?_
          [.answered ⟨number, iteration, index⟩ request decision] ?_ (inv.sound.answer asked)
          (inv.remembered.cons (by simp [GateEvent.about])) ?_
        · intro other different
          exact ⟨rfl, Function.update_of_ne different _ _⟩
        · simp [GateEvent.about]
        · intro other verdict calledAgain again
          cases called.symm.trans calledAgain
          cases pending.symm.trans again
          dsimp only
          rw [Function.update_self]
          exact ⟨usable, key, (callLog_cons_same rfl).trans (congrArg _ asked)⟩
      · cases stepped
    · cases stepped

/-- An answered check records a sticky decision before it returns. -/
theorem PermissionInvariant.remember (inv : PermissionInvariant settings s) {number index : Nat}
    (stepped : s.remember settings number index = some t) : PermissionInvariant settings t := by
  unfold PermissionState.remember at stepped
  split at stepped
  · cases stepped
  · rename_i run found
    split at stepped
    · rename_i iteration choice decisions phase
      split at stepped
      · rename_i block request decision called pending answered
        have state :=
          inv.calls number run found iteration choice decisions (by rw [phase]; rfl) index block _
            called pending
        rw [answered] at state
        obtain ⟨usable, key, asked⟩ := state
        unfold PermissionState.record at stepped
        split at stepped
        · rename_i sticky
          have inside : .answered ⟨number, iteration, index⟩ request decision ∈ s.log :=
            (mem_callLog rfl).mp (by rw [asked]; simp)
          have recorded :
              LogSound settings (.recorded (settings.key request) decision :: s.log) := by
            apply inv.sound.cons <;> simp [GateEvent.about]
          have kept :
              callLog ⟨number, iteration, index⟩ (.recorded (settings.key request) decision ::
                s.log) = _ :=
            (callLog_cons_other (by simp [GateEvent.about])).trans asked
          exact inv.returnDecision found phase called pending
            [.recorded (settings.key request) decision]
            (by simp [GateEvent.about]) stepped (recorded.return kept)
              (inv.remembered.record sticky inside)
            (.asked kept usable)
        · exact inv.returnDecision found phase called pending [] (by simp) stepped
            (inv.sound.return asked) inv.remembered
            (.asked asked usable)
      · cases stepped
    · cases stepped

/-- A subagent starts as a new run. -/
theorem PermissionInvariant.delegate (inv : PermissionInvariant settings s) {call : CallId}
    {name systemPrompt task : String} {config : AgentConfig} {toolsBytes : Nat}
    (stepped : s.delegate call name systemPrompt task config toolsBytes = some t) :
    PermissionInvariant settings t := by
  unfold PermissionState.delegate at stepped
  split at stepped
  · cases stepped
  · split at stepped
    · dsimp only at stepped
      split at stepped
      · cases stepped
        exact inv.addRun rfl _ _ _
      · cases stepped
    · cases stepped

/-- Every step of the session keeps the invariant. -/
theorem PermissionInvariant.step (inv : PermissionInvariant settings s) {action : GateAction}
    (stepped : s.step settings action = some t) : PermissionInvariant settings t := by
  cases action with
  | startTurn config promptBuilder toolsBytes messages =>
      cases stepped
      exact inv.addRun rfl _ _ _
  | delegate => exact inv.delegate stepped
  | cancel turn =>
      cases stepped
      exact inv.cancel turn
  | agent => exact inv.stepAgent stepped
  | execute => exact inv.execute stepped
  | check => exact inv.check stepped
  | answer => exact inv.answer stepped
  | remember => exact inv.remember stepped

end Steps

/-- In every interleaving of the turns and subagents of one session, a call is executed only with
usable arguments and when it is justified; a call that was answered with a rejection is never
executed; and a check whose answer is known when it starts returns this answer and does not ask. -/
theorem permissions_sound {settings : GateSettings} {s : PermissionState}
    (reached : (permissionMachine settings).Reachable s) :
    (∀ call block before, (.executed call block :: before) <:+ s.log →
      argumentsAreUsable settings.json block.arguments ∧ Justified settings before call block) ∧
    (∀ call block decision, .executed call block ∈ s.log →
      (.returned call decision ∈ s.log ∨ ∃ request, .answered call request decision ∈ s.log) →
        decision.isAllowed) ∧
    ∀ call request before decision, (.started call request :: before) <:+ s.log →
      settings.known before request = some decision →
      .returned call decision ∈ s.log ∧ (∀ other, .returned call other ∈ s.log → other = decision) ∧
        ∀ request, .asked call request ∉ s.log := by
  have inv : PermissionInvariant settings s := by
    apply reached.invariant
    · rintro first rfl
      exact ⟨⟨by simp, by simp, by simp⟩, ⟨fun _ => rfl, by simp⟩, by simp, by simp⟩
    · intro first action last before _ stepped
      exact before.step stepped
  exact ⟨inv.sound.executed, inv.sound.rejected, inv.sound.known⟩

/-- The sample session reads files without asking, and approves every other tool by its name. -/
def sampleSettings : GateSettings :=
  ⟨⟨fun text => if text = "{}" then some (.object []) else none, fun _ => "{}"⟩, ["read_file"],
    fun _ => .toolName⟩

def shellReply : Reply :=
  ⟨⟨⟨.assistant, [.toolUse "a" "execute_command" "{}" none]⟩, some .toolCalls, none⟩, rfl⟩

/-- The first call asks and is always allowed; the second one is answered from memory. -/
def sampleSession : List GateAction :=
  [.startTurn ⟨"local", .openAiCompatible, "", "", "small", 5, 60, none, none, false,
    false⟩ none 0 [.ofUser "run"], .agent 0 .proceed, .agent 0 (.reply (.ok shellReply)),
    .agent 0 .proceed, .check 0 0, .answer 0 0 .allowAlways,
    .remember 0 0, .agent 0 .proceed, .execute 0 0, .agent 0 (.complete 0 (.ok "done")),
    .agent 0 .proceed, .agent 0 .proceed, .agent 0 .proceed, .agent 0 (.reply (.ok shellReply)),
    .agent 0 .proceed, .check 0 0, .agent 0 .proceed, .execute 0 0]

/-- The sample session executes both calls and asks once. -/
theorem permissions_sample :
    ∃ s, (permissionMachine sampleSettings).exec ⟨fun _ => none, [], []⟩ sampleSession = some s ∧
    s.log.length = 9 ∧
    (∀ call block before, (.executed call block :: before) <:+ s.log →
      argumentsAreUsable sampleSettings.json block.arguments ∧
        Justified sampleSettings before call block) ∧
    (∀ call block decision, .executed call block ∈ s.log →
      (.returned call decision ∈ s.log ∨ ∃ request, .answered call request decision ∈ s.log) →
        decision.isAllowed) ∧
    ∀ call request before decision, (.started call request :: before) <:+ s.log →
      sampleSettings.known before request = some decision →
      .returned call decision ∈ s.log ∧ (∀ other, .returned call other ∈ s.log → other = decision) ∧
        ∀ request, .asked call request ∉ s.log := by
  have executed : (permissionMachine sampleSettings).exec ⟨fun _ => none, [], []⟩ sampleSession =
    some _ := rfl
  have started : (permissionMachine sampleSettings).start ⟨fun _ => none, [], []⟩ := rfl
  exact ⟨_, executed, rfl, permissions_sound (Machine.reachable_of_exec started executed)⟩

end Openheim
