import Openheim.Tui.AnsweredPermissions
import Openheim.Tui.AppFrames

/-
This file shows that no input and no update makes the terminal interface panic: the selection of a
popup and the highlighted option always exist, and the input line is always a text with a cursor in
it.
-/

namespace Openheim.Tui
open Memory

/-- The selection of a picker stands on one of its entries, unless it has none. -/
def Overlay.InRange : Overlay → Prop
  | .modelPicker items selected => items = [] ∨ selected < items.length
  | .sessionPicker sessions selected => selected < sessions.length
  | .themePicker selected => selected < themeColors.length
  | .configViewer _ _ | .mcpViewer _ _ | .skillsViewer _ _ => True

/-- What the operations of the interface rely on. -/
structure App.Valid (app : App) : Prop where
  overlay : ∀ overlay ∈ app.overlay, overlay.InRange
  permissions : queueMachine.Reachable app.permissions
  idle : app.permissions.pruning = none
  input : ∃ zipper, Refines app.input zipper

section Pruning
variable {s : QueueState}

/-- Waiting sides may go away at any moment. -/
theorem exec_expire (s : QueueState) (channels : List Nat) :
    ∃ closed, queueMachine.exec s (channels.map .expire) = some { s with closed } := by
  induction channels generalizing s with
  | nil => exact ⟨s.closed, rfl⟩
  | cons channel channels ih => exact ih { s with closed := channel :: s.closed }

/-- A sweep tests the next request, whatever it finds. -/
theorem step_testNext {frontIsStale : Bool} {retained rest : List PendingPermission}
    {request : PendingPermission}
    (pruning : s.pruning = some ⟨frontIsStale, retained, request :: rest⟩) :
    ∃ t kept, queueMachine.step s .testNext = some t ∧
      t.pruning = some ⟨frontIsStale, kept, rest⟩ := by
  refine ⟨{ s with pruning := some ⟨frontIsStale, if s.isClosed request then retained
    else retained ++ [request], rest⟩ }, _, ?_, rfl⟩
  show QueueState.step s .testNext = _
  rw [QueueState.step, pruning]

/-- Every waiting request is tested in its turn. -/
theorem exec_tests {frontIsStale : Bool} {retained untested : List PendingPermission}
    (pruning : s.pruning = some ⟨frontIsStale, retained, untested⟩) (gone : Nat → List Nat)
    {rounds : List Nat} (length : rounds.length = untested.length) :
    ∃ t kept,
      queueMachine.exec s (rounds.flatMap fun i => (gone i).map .expire ++ [.testNext]) = some t ∧
      t.pruning = some ⟨frontIsStale, kept, []⟩ := by
  induction rounds generalizing s retained untested with
  | nil =>
      obtain rfl := List.eq_nil_of_length_eq_zero length.symm
      exact ⟨s, retained, rfl, pruning⟩
  | cons round rounds ih =>
      cases untested with
      | nil => cases length
      | cons request rest =>
          obtain ⟨closed, expired⟩ := exec_expire s (gone round)
          obtain ⟨middle, kept, tested, found⟩ := step_testNext (s := { s with closed }) pruning
          obtain ⟨t, final, executed, ended⟩ := ih found (Nat.succ.inj length)
          refine ⟨t, final, ?_, ended⟩
          rw [List.flatMap_cons, List.append_assoc, Machine.exec_append, expired, Option.bind_some,
            List.singleton_append, Machine.exec, tested, Option.bind_some]
          exact executed

/-- A `prune_stale` comes to its end. -/
theorem exec_prune (idle : s.pruning = none) (gone : List (List Nat)) :
    ∃ t, queueMachine.exec s (pruneActions s.queue.pending.length gone) = some t ∧
      t.pruning = none := by
  obtain ⟨closed, expired⟩ := exec_expire s (gone.headD [])
  let begun : QueueState := { s with
    closed, pruning := some ⟨s.queue.front.any { s with closed }.isClosed, [], s.queue.pending⟩ }
  have begins : queueMachine.step { s with closed } .beginPrune = some begun := by
    show QueueState.step { s with closed } .beginPrune = _
    rw [QueueState.step]
    · simp only [idle]
      rfl
    all_goals simp
  have rounds : (List.range s.queue.pending.length).length = s.queue.pending.length :=
    List.length_range
  obtain ⟨tested, kept, executed, found⟩ :=
    exec_tests (s := begun) rfl (fun i => (gone.drop (i + 1)).headD []) rounds
  have ends : ∃ t, queueMachine.step tested .endPrune = some t ∧ t.pruning = none := by
    refine ⟨{ tested with
      queue :=
        ⟨kept, if s.queue.front.any { s with closed }.isClosed then 0 else tested.queue.selected⟩
      pruning := none }, ?_, rfl⟩
    show QueueState.step tested .endPrune = _
    rw [QueueState.step, found]
  obtain ⟨t, ended, idle⟩ := ends
  refine ⟨t, ?_, idle⟩
  have opening : queueMachine.exec s ((gone.headD []).map .expire ++ [.beginPrune]) =
      some begun := by
    rw [Machine.exec_append, expired, Option.bind_some, Machine.exec, begins]
    rfl
  rw [pruneActions, Machine.exec_append, Machine.exec_append, opening, Option.bind_some, executed,
    Option.bind_some, Machine.exec, ended]
  rfl

/-- What is done to an idle queue outside `prune_stale`. -/
theorem step_idle (idle : s.pruning = none) {action : QueueAction}
    (direct : (∃ toolName arguments subagent, action = .push toolName arguments subagent) ∨
      action = .selectPrevious ∨
      action = .selectNext ∨ ∃ decision, action = .resolve decision) :
    ∃ t, queueMachine.step s action = some t ∧ t.pruning = none := by
  have acts : queueMachine.step s action = s.act action := by
    show QueueState.step s action = _
    obtain ⟨_, _, _, rfl⟩ | rfl | rfl | ⟨_, rfl⟩ := direct <;> rw [QueueState.step, idle] <;> simp
  rw [acts]
  obtain ⟨toolName, arguments, subagent, rfl⟩ | rfl | rfl | ⟨decision, rfl⟩ := direct
  · exact ⟨_, rfl, idle⟩
  · exact ⟨_, rfl, idle⟩
  · exact ⟨_, rfl, idle⟩
  · rw [QueueState.act]
    split
    · exact ⟨s, rfl, idle⟩
    · refine ⟨_, rfl, ?_⟩
      rw [QueueState.send]
      split <;> exact idle

end Pruning

namespace App

/-- The popup, the permission requests and the input line stay as they are. -/
structure SameLayers (before after : App) : Prop where
  overlay : after.overlay = before.overlay
  permissions : after.permissions = before.permissions
  input : after.input = before.input

section Layers
variable {uuid : UuidCrate} {app after : App}

/-- An interface with the same layers is valid. -/
theorem Valid.same (valid : app.Valid) (same : SameLayers app after) : after.Valid where
  overlay := by
    rw [same.overlay]
    exact valid.overlay
  permissions := by
    rw [same.permissions]
    exact valid.permissions
  idle := by
    rw [same.permissions]
    exact valid.idle
  input := by
    rw [same.input]
    exact valid.input

/-- An overlay with a selection in range may be shown or closed. -/
theorem Valid.setOverlay (valid : app.Valid) {overlay : Option Overlay}
    (inRange : ∀ other ∈ overlay, other.InRange) :
    Valid { app with overlay } :=
  ⟨inRange, valid.permissions, valid.idle, valid.input⟩

/-- An overlay with a selection in range may be shown. -/
theorem Valid.show (valid : app.Valid) {overlay : Overlay} (inRange : overlay.InRange) :
    Valid { app with overlay := some overlay } :=
  valid.setOverlay fun _ found => Option.some.inj found ▸ inRange

/-- Closing the overlay leaves the interface valid. -/
theorem Valid.close (valid : app.Valid) : Valid { app with overlay := none } :=
  valid.setOverlay (by simp)

/-- An update may only bring up the list of sessions. -/
theorem Valid.handleUpdate (valid : app.Valid) (update : AgentUpdate) :
    (app.handleUpdate update).Valid := by
  cases update with
  | stream event =>
      refine valid.same ?_
      cases event <;> exact ⟨rfl, rfl, rfl⟩
  | sessionList sessions =>
      cases sessions with
      | nil => exact valid.same ⟨rfl, rfl, rfl⟩
      | cons first rest => exact valid.show (Nat.succ_pos rest.length)
  | history items =>
      obtain ⟨transcript, frame⟩ := pushAll_frame app items
      rw [App.handleUpdate, frame]
      exact valid.same ⟨rfl, rfl, rfl⟩
  | newSession items =>
      rw [App.handleUpdate]
      obtain ⟨transcript, frame⟩ := pushAll_frame { app with
        transcript := app.transcript.clear, contextUsage := none, status := .idle } items
      rw [frame]
      exact valid.same ⟨rfl, rfl, rfl⟩
  | error | notice | modelChanged | usage => exact valid.same ⟨rfl, rfl, rfl⟩

/-- The first entry that is found, or the first of all, is one of the entries. -/
theorem findIdx_inRange {α : Type*} (items : List α) (p : α → Bool) :
    items = [] ∨ (items.findIdx? p).getD 0 < items.length := by
  refine or_iff_not_imp_left.mpr fun nonempty => ?_
  cases found : items.findIdx? p with
  | none => exact List.length_pos_of_ne_nil nonempty
  | some i => exact (List.findIdx?_eq_some_iff_getElem.mp found).1

/-- Every command leaves the interface valid. -/
theorem Valid.handleCommand (valid : app.Valid) (outside : Outside) (cmd : List Char) :
    (app.handleCommand outside cmd).Valid := by
  rw [App.handleCommand]
  dsimp only
  split
  · exact valid.same ⟨rfl, rfl, rfl⟩
  · exact valid.same ⟨rfl, rfl, rfl⟩
  · exact valid.same ⟨rfl, rfl, rfl⟩
  · rw [startNewSession]
    split <;> exact valid.same ⟨rfl, rfl, rfl⟩
  · exact valid.same ⟨rfl, rfl, rfl⟩
  · exact valid.show trivial
  · split
    · exact valid.same ⟨rfl, rfl, rfl⟩
    · exact valid.show trivial
  · split
    · exact valid.show (findIdx_inRange _ _)
    · split <;> exact valid.same ⟨rfl, rfl, rfl⟩
  · split
    · exact valid.same ⟨rfl, rfl, rfl⟩
    · exact valid.show trivial
    · exact valid.same ⟨rfl, rfl, rfl⟩
  · split
    · exact valid.show ((findIdx_inRange themeColors _).resolve_left (by decide))
    · split
      · obtain ⟨theme, themeColor, transcript, frame⟩ := applyTheme_frame app outside
          (String.ofList (Lines.trim ((cmd.dropWhile (· ≠ ' ')).drop 1)))
        rw [frame]
        exact valid.same ⟨rfl, rfl, rfl⟩
      · exact valid.same ⟨rfl, rfl, rfl⟩
  · exact valid.same ⟨rfl, rfl, rfl⟩

/-- The operations of the input line never panic. -/
theorem Valid.editInput (valid : app.Valid) (op : InputOp) :
    ∃ next, app.editInput op = some next ∧ next.Valid := by
  obtain ⟨zipper, refines⟩ := valid.input
  obtain ⟨input, edited, kept⟩ := apply_refines app.input zipper op refines
  refine ⟨{ app with input }, ?_, valid.overlay, valid.permissions, valid.idle,
    edit zipper op, kept⟩
  have applied : app.input.apply op = some input := edited
  rw [App.editInput, applied]
  rfl

/-- Entering a line leaves the interface valid. -/
theorem Valid.handleEnter (valid : app.Valid) (outside : Outside) :
    (app.handleEnter outside).Valid := by
  have cleared : Valid { app with input := app.input.clear, screen := .chat } :=
    ⟨valid.overlay, valid.permissions, valid.idle, .empty, rfl, rfl⟩
  rw [App.handleEnter]
  dsimp only
  split
  · exact valid
  · split
    · exact cleared.handleCommand outside _
    · exact cleared.same ⟨rfl, rfl, rfl⟩

/-- Scrolling leaves the interface valid. -/
theorem Valid.scrollChat (valid : app.Valid) (scroll : Transcript → Transcript) :
    (app.scrollChat scroll).Valid := by
  rw [App.scrollChat]
  split
  · exact valid.same ⟨rfl, rfl, rfl⟩
  · exact valid

/-- Every key of the input line is handled without a panic. -/
theorem Valid.handleInputKey (valid : app.Valid) (outside : Outside) (key : KeyEvent) :
    ∃ next, app.handleInputKey outside key = some next ∧ next.Valid := by
  rw [App.handleInputKey]
  cases key.code with
  | char char =>
      dsimp only
      split <;> exact valid.editInput _
  | enter => exact ⟨_, rfl, valid.handleEnter outside⟩
  | backspace | delete | left | right | home | toEnd => exact valid.editInput _
  | up | down | pageUp | pageDown => exact ⟨_, rfl, valid.scrollChat _⟩
  | esc | other => exact ⟨app, rfl, valid⟩

/-- A selection that moves stays in range. -/
theorem moveSelection_inRange {selected length : Nat} (inRange : selected < length)
    (code : KeyCode) :
    moveSelection selected length code < length := by
  unfold moveSelection
  split <;> omega

/-- A key that a popup gets moves within its entries, or acts on one of them. -/
theorem Valid.handleOverlayKey (valid : app.Valid) (outside : Outside) (key : KeyEvent)
    {overlay : Overlay}
    (found : app.overlay = some overlay) :
    ∃ next, handleOverlayKey uuid app outside key overlay = some next ∧
      next.Valid := by
  have inRange := valid.overlay overlay found
  have closed : Valid { app with overlay := none, screen := .chat } :=
    valid.close.same ⟨rfl, rfl, rfl⟩
  unfold App.handleOverlayKey
  dsimp only
  split
  · exact ⟨_, rfl, valid.close⟩
  · cases overlay with
    | modelPicker items selected =>
        dsimp only
        split
        · refine ⟨_, rfl, ?_⟩
          split
          · exact closed.same ⟨rfl, rfl, rfl⟩
          · exact closed
        · exact ⟨_, rfl,
            valid.show (inRange.imp_right fun inside => moveSelection_inRange inside key.code)⟩
    | sessionPicker sessions selected =>
        dsimp only
        split
        · refine ⟨_, rfl, ?_⟩
          split
          · next meta_ _ =>
            obtain ⟨transcript, status, channels, frame⟩ := openSession_frame uuid
              { app with overlay := none, screen := .chat } outside meta_
            rw [frame]
            exact closed.same ⟨rfl, rfl, rfl⟩
          · exact valid
        · exact ⟨_, rfl, valid.show (moveSelection_inRange inRange key.code)⟩
    | themePicker selected =>
        dsimp only
        split
        · refine ⟨_, congrArg (Option.map _) (List.getElem?_eq_getElem inRange), ?_⟩
          obtain ⟨theme, themeColor, transcript, frame⟩ := applyTheme_frame
            { app with overlay := none, screen := .chat } outside themeColors[selected]
          dsimp only
          rw [frame]
          exact closed.same ⟨rfl, rfl, rfl⟩
        · exact ⟨_, rfl, valid.show (moveSelection_inRange inRange key.code)⟩
    | configViewer rows scroll => exact ⟨_, rfl, valid.show trivial⟩
    | mcpViewer rows scroll => exact ⟨_, rfl, valid.show trivial⟩
    | skillsViewer items scroll => exact ⟨_, rfl, valid.show trivial⟩

/-- The requests change only as their queue does. -/
theorem Valid.setPermissions (valid : app.Valid) {permissions : QueueState}
    (reached : queueMachine.Reachable permissions) (idle : permissions.pruning = none) :
    Valid { app with permissions } := ⟨valid.overlay, reached, idle, valid.input⟩

/-- A sweep of the permissions runs to its end. -/
theorem Valid.pruneStale (valid : app.Valid) (gone : List (List Nat)) :
    ∃ permissions, app.pruneStale gone = some { app with permissions } ∧
      Valid { app with permissions } := by
  obtain ⟨t, executed, idle⟩ := exec_prune valid.idle gone
  refine ⟨t, ?_, valid.setPermissions (valid.permissions.exec executed) idle⟩
  rw [App.pruneStale, executed]
  rfl

/-- A decision is sent without a panic. -/
theorem Valid.resolvePermission (valid : app.Valid) (decision : PermissionDecision) :
    ∃ next, app.resolvePermission decision = some next ∧ next.Valid := by
  obtain ⟨t, stepped, idle⟩ := step_idle valid.idle (.inr (.inr (.inr ⟨decision, rfl⟩)))
  have answered := valid.setPermissions (valid.permissions.step stepped) idle
  rw [App.resolvePermission, stepped]
  refine ⟨_, rfl, ?_⟩
  split
  · exact answered.same ⟨rfl, rfl, rfl⟩
  · exact answered

/-- The highlighted option exists. -/
theorem Valid.selectedDecision (valid : app.Valid) :
    ∃ decision, app.permissions.queue.selectedDecision = some decision := by
  have option := (ledger_of_reachable valid.permissions).option
  exact ⟨_, congrArg (Option.map _) (List.getElem?_eq_getElem option)⟩

/-- Every key at the prompt is handled without a panic. -/
theorem Valid.handlePermissionKey (valid : app.Valid) (key : KeyEvent) :
    ∃ next, app.handlePermissionKey key = some next ∧ next.Valid := by
  rw [App.handlePermissionKey]
  cases key.code with
  | up =>
      obtain ⟨t, stepped, idle⟩ := step_idle valid.idle (.inr (.inl rfl))
      exact ⟨_, congrArg (Option.map _) stepped,
        valid.setPermissions (valid.permissions.step stepped) idle⟩
  | down =>
      obtain ⟨t, stepped, idle⟩ := step_idle valid.idle (.inr (.inr (.inl rfl)))
      exact ⟨_, congrArg (Option.map _) stepped,
        valid.setPermissions (valid.permissions.step stepped) idle⟩
  | enter =>
      obtain ⟨decision, selected⟩ := valid.selectedDecision
      dsimp only
      rw [selected]
      exact valid.resolvePermission decision
  | char char =>
      dsimp only
      split
      · exact valid.resolvePermission _
      · split
        · exact valid.resolvePermission _
        · split
          · exact valid.resolvePermission _
          · split
            · exact valid.resolvePermission _
            · exact ⟨app, rfl, valid⟩
  | _ => exact ⟨app, rfl, valid⟩

/-- Every key is handled without a panic. -/
theorem Valid.handleKey (valid : app.Valid) (now : Instant) (outside : Outside)
    (gone : List (List Nat))
    (key : KeyEvent) :
    ∃ next, App.handleKey uuid app now outside gone key = some next ∧ next.Valid := by
  rw [App.handleKey]
  split
  · refine ⟨_, rfl, valid.same ?_⟩
    rw [handleCtrlC]
    split <;> exact ⟨rfl, rfl, rfl⟩
  · have disarmed : Valid { app with quitArmedUntil := none } := valid.same ⟨rfl, rfl, rfl⟩
    obtain ⟨permissions, pruned, fresh⟩ := disarmed.pruneStale gone
    rw [pruned, Option.bind_some]
    split
    · exact fresh.handlePermissionKey key
    · split
      · next overlay found => exact fresh.handleOverlayKey outside key found
      · exact fresh.handleInputKey outside key

/-- Whatever happens to a valid interface, it goes on and is valid again. -/
theorem Valid.step (uuid : UuidCrate) (valid : app.Valid) (event : AppEvent) :
    ∃ next, (appMachine uuid).step app event = some next ∧ next.Valid := by
  cases event with
  | tick => exact ⟨_, rfl, valid.same ⟨rfl, rfl, rfl⟩⟩
  | key now outside gone key => exact valid.handleKey now outside gone key
  | paste gone text =>
      have disarmed : Valid { app with quitArmedUntil := none } := valid.same ⟨rfl, rfl, rfl⟩
      obtain ⟨permissions, pruned, fresh⟩ := disarmed.pruneStale gone
      show ∃ next, app.handlePaste gone text = some next ∧ next.Valid
      rw [handlePaste, pruned, Option.bind_some]
      split
      · exact ⟨_, rfl, fresh⟩
      · exact fresh.editInput _
  | resize => exact ⟨_, rfl, valid.same ⟨rfl, rfl, rfl⟩⟩
  | update update => exact ⟨_, rfl, valid.handleUpdate update⟩
  | permissionRequest toolName arguments subagent =>
      obtain ⟨t, stepped, idle⟩ := step_idle valid.idle (.inl ⟨toolName, arguments, subagent, rfl⟩)
      exact ⟨_, congrArg (Option.map _) stepped,
        valid.setPermissions (valid.permissions.step stepped) idle⟩
  | draw gone width height =>
      obtain ⟨permissions, pruned, fresh⟩ := valid.pruneStale gone
      show ∃ next, (app.draw gone width height).map Prod.fst = some next ∧ next.Valid
      rw [draw, pruned]
      refine ⟨_, rfl, fresh.same ?_⟩
      dsimp only [Option.map_some]
      split <;> exact ⟨rfl, rfl, rfl⟩

end Layers

end App

/-- A frame is drawn; everything else is an input or an update. -/
def AppEvent.repaints : AppEvent → Bool
  | .draw _ _ _ => true
  | _ => false

/-- No input and no update makes the interface panic, in whatever state it is, whatever frames are
drawn in between. The selection of a picker and the highlighted option of a permission prompt exist,
and the cursor is at a place of the text. -/
theorem app_never_panics (uuid : UuidCrate) {app : App}
    (reached : (appMachine uuid).Reachable app) :
    app.Valid ∧ ∀ event, event.repaints = false → ((appMachine uuid).step app event).isSome := by
  have valid : app.Valid := by
    refine reached.invariant ?_ fun app event next valid _ stepped => ?_
    · rintro _ ⟨agentConfig, appConfig, mcpServers, themeColor, skills, rfl⟩
      exact ⟨by simp [App.new], ⟨_, rfl, .refl⟩, rfl, .empty, rfl, rfl⟩
    · obtain ⟨other, also, kept⟩ := valid.step uuid event
      rw [stepped] at also
      exact Option.some.inj also ▸ kept
  refine ⟨valid, fun event _ => ?_⟩
  obtain ⟨next, stepped, _⟩ := valid.step uuid event
  rw [stepped]
  rfl

/-- The user asks for the list of two sessions, goes down further than it reaches, and
a tool asks for permission. -/
def pickingEvents : List AppEvent :=
  let meta_ : ConversationMeta := .new 0 0 none none []
  [.update (.sessionList [meta_, meta_]), plainKey .down, plainKey .down, plainKey .down,
    .permissionRequest "read_file" "{}" none, plainKey .down]

/-- The sample interface is as safe as any other. -/
theorem app_never_panics_sample :
    ∃ app, (appMachine Uuid.crate).exec startedApp pickingEvents = some app ∧
    app.permissions.queue.selected = 1 ∧ app.Valid ∧
      ∀ event, event.repaints = false → ((appMachine Uuid.crate).step app event).isSome := by
  obtain ⟨app, executed, selected⟩ : ∃ app,
      (appMachine Uuid.crate).exec startedApp pickingEvents = some app ∧
      app.permissions.queue.selected = 1 := ⟨_, rfl, rfl⟩
  exact ⟨app, executed, selected,
    app_never_panics Uuid.crate (Machine.reachable_of_exec ⟨_, _, _, _, _, rfl⟩ executed)⟩

end Openheim.Tui
