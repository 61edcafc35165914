import Openheim.Tui.App

/-
This file says which fields of the terminal interface each of its operations changes.
-/

namespace Openheim.Tui
open Memory

/-- The command is one of the two that quit. -/
def isQuit (cmd : List Char) : Bool := String.ofList (cmd.takeWhile (· ≠ ' ')) ∈ ["q", "quit"]

/-- The input is a command that quits. -/
def inputQuits (text : List Char) : Bool :=
  match Lines.trim text with
  | ':' :: command => isQuit (Lines.trim command)
  | _ => false

namespace App
variable {uuid : UuidCrate} {app next : App}

/-- Items that are pushed change only the transcript. -/
theorem pushAll_frame (app : App) (items : List ChatItem) :
    ∃ transcript, items.foldl push app = { app with transcript } := by
  induction items generalizing app with
  | nil => exact ⟨app.transcript, rfl⟩
  | cons item items ih => exact ih (app.push item)

/-- An update changes neither the input nor the channels. -/
theorem handleUpdate_frame (app : App) (update : AgentUpdate) :
    ∃ transcript status contextUsage overlay agentConfig,
    app.handleUpdate update =
      { app with transcript, status, contextUsage, overlay, agentConfig } := by
  cases update with
  | stream event => cases event <;> exact ⟨_, _, _, _, _, rfl⟩
  | sessionList sessions => cases sessions <;> exact ⟨_, _, _, _, _, rfl⟩
  | history items =>
      obtain ⟨transcript, frame⟩ := pushAll_frame app items
      exact ⟨transcript, _, _, _, _, frame⟩
  | newSession items =>
      obtain ⟨transcript, frame⟩ := pushAll_frame { app with
        transcript := app.transcript.clear, contextUsage := none, status := .idle } items
      exact ⟨transcript, _, _, _, _, frame⟩
  | error | notice | modelChanged | usage => exact ⟨_, _, _, _, _, rfl⟩

/-- A sweep changes only the permissions. -/
theorem pruneStale_frame {gone : List (List Nat)} (pruned : app.pruneStale gone = some next) :
    ∃ permissions, next = { app with permissions } := by
  obtain ⟨permissions, _, rfl⟩ := Option.map_eq_some_iff.mp pruned
  exact ⟨permissions, rfl⟩

/-- Editing changes only the input. -/
theorem editInput_frame {op : InputOp} (edited : app.editInput op = some next) :
    ∃ input, next = { app with input } := by
  obtain ⟨input, _, rfl⟩ := Option.map_eq_some_iff.mp edited
  exact ⟨input, rfl⟩

/-- A decision changes only the permissions and the transcript. -/
theorem resolvePermission_frame {decision : PermissionDecision}
    (resolved : app.resolvePermission decision = some next) :
    ∃ permissions transcript, next = { app with permissions, transcript } := by
  obtain ⟨permissions, _, rfl⟩ := Option.map_eq_some_iff.mp resolved
  split <;> exact ⟨_, _, rfl⟩

/-- A key at the prompt changes only the permissions and the transcript. -/
theorem handlePermissionKey_frame {key : KeyEvent}
    (handled : app.handlePermissionKey key = some next) :
    ∃ permissions transcript, next = { app with permissions, transcript } := by
  have select {action : QueueAction}
      (moved : ((queueMachine.step app.permissions action).map fun permissions =>
      { app with permissions }) = some next) : ∃ permissions transcript,
          next = { app with permissions, transcript } := by
    obtain ⟨permissions, _, rfl⟩ := Option.map_eq_some_iff.mp moved
    exact ⟨permissions, _, rfl⟩
  rw [handlePermissionKey] at handled
  cases code : key.code with
  | up | down =>
      rw [code] at handled
      exact select handled
  | enter =>
      rw [code] at handled
      obtain ⟨decision, _, resolved⟩ := Option.bind_eq_some_iff.mp handled
      exact resolvePermission_frame resolved
  | char char =>
      rw [code] at handled
      dsimp only at handled
      split at handled
      · exact resolvePermission_frame handled
      · split at handled
        · exact resolvePermission_frame handled
        · split at handled
          · exact resolvePermission_frame handled
          · split at handled
            · exact resolvePermission_frame handled
            · cases handled
              exact ⟨_, _, rfl⟩
  | _ =>
      rw [code] at handled
      cases handled
      exact ⟨_, _, rfl⟩

/-- A theme changes only the colors and the transcript. -/
theorem applyTheme_frame (app : App) (outside : Outside) (name : String) :
    ∃ theme themeColor transcript, app.applyTheme outside name =
      { app with theme, themeColor, transcript } := by
  rw [applyTheme]
  split <;> exact ⟨_, _, _, rfl⟩

/-- Opening a session changes the transcript, the status and what is asked for. -/
theorem openSession_frame (uuid : UuidCrate) (app : App) (outside : Outside)
    (meta_ : ConversationMeta) :
    ∃ transcript status channels, openSession uuid app outside meta_ =
      { app with transcript, status, channels } := by
  rw [openSession]
  split
  · split <;> exact ⟨_, _, _, rfl⟩
  · exact ⟨_, _, _, rfl⟩

/-- What a command changes; it quits exactly when it is one of the two. -/
theorem handleCommand_frame (app : App) (outside : Outside) (cmd : List Char) :
    ∃ transcript status channels overlay theme themeColor, app.handleCommand outside cmd =
      { app with
        shouldQuit := app.shouldQuit || isQuit cmd, transcript, status, channels, overlay, theme,
          themeColor } := by
  have other (known : isQuit cmd = false) (after : App) :
      (∃ transcript status channels overlay theme themeColor,
      after = { app with transcript, status, channels, overlay, theme, themeColor }) →
      ∃ transcript status channels overlay theme themeColor, after = { app with
        shouldQuit := app.shouldQuit || isQuit cmd, transcript, status, channels, overlay, theme,
            themeColor } := by
    rw [known, Bool.or_false]
    exact id
  unfold handleCommand
  generalize named : String.ofList (cmd.takeWhile (· ≠ ' ')) = name
  have quits : isQuit cmd = decide (name ∈ ["q", "quit"]) := by rw [isQuit, named]
  dsimp only
  split
  · rw [quits, decide_eq_true (by decide), Bool.or_true]
    exact ⟨_, _, _, _, _, _, rfl⟩
  · rw [quits, decide_eq_true (by decide), Bool.or_true]
    exact ⟨_, _, _, _, _, _, rfl⟩
  · exact other (by rw [quits]; decide) _ ⟨_, _, _, _, _, _, rfl⟩
  · refine other (by rw [quits]; decide) _ ?_
    rw [startNewSession]
    split <;> exact ⟨_, _, _, _, _, _, rfl⟩
  · exact other (by rw [quits]; decide) _ ⟨_, _, _, _, _, _, rfl⟩
  · exact other (by rw [quits]; decide) _ ⟨_, _, _, _, _, _, rfl⟩
  · refine other (by rw [quits]; decide) _ ?_
    split <;> exact ⟨_, _, _, _, _, _, rfl⟩
  · refine other (by rw [quits]; decide) _ ?_
    split
    · exact ⟨_, _, _, _, _, _, rfl⟩
    · split <;> exact ⟨_, _, _, _, _, _, rfl⟩
  · refine other (by rw [quits]; decide) _ ?_
    split <;> exact ⟨_, _, _, _, _, _, rfl⟩
  · refine other (by rw [quits]; decide) _ ?_
    split
    · exact ⟨_, _, _, _, _, _, rfl⟩
    · split
      · obtain ⟨theme, themeColor, transcript, frame⟩ := applyTheme_frame app outside
          (String.ofList (Lines.trim ((cmd.dropWhile (· ≠ ' ')).drop 1)))
        exact ⟨transcript, _, _, _, theme, themeColor, frame⟩
      · exact ⟨_, _, _, _, _, _, rfl⟩
  · next first second _ _ _ _ _ _ _ _ =>
    have different : name ∉ ["q", "quit"] := by
      rw [List.mem_cons, List.mem_singleton, not_or]
      exact ⟨first, second⟩
    exact other (quits.trans (decide_eq_false different)) _ ⟨_, _, _, _, _, _, rfl⟩

/-- A blank line does not quit. -/
theorem inputQuits_of_blank {text : List Char} (blank : Lines.isBlank text = true) :
    inputQuits text = false := by
  have nothing : Lines.trim text = [] := by
    rw [Lines.trim, List.dropWhile_eq_nil_iff.mpr (List.all_eq_true.mp blank)]
    rfl
  rw [inputQuits, nothing]

/-- No turn runs, and the input is a command that quits. -/
def quitTyped (app : App) : Bool := app.status = .idle && inputQuits app.input.chars

/-- Entering a line quits when it says so, and otherwise leaves the permissions. -/
theorem handleEnter_frame (app : App) (outside : Outside) :
    ∃ input screen transcript status channels overlay theme themeColor, app.handleEnter outside =
      { app with
        shouldQuit := app.shouldQuit || app.quitTyped, input, screen, transcript, status, channels,
          overlay, theme,
        themeColor } := by
  rw [handleEnter]
  dsimp only
  split
  · next stays =>
    have nothing : app.quitTyped = false := by
      rw [quitTyped]
      rcases stays with busy | blank
      · rw [decide_eq_false busy, Bool.false_and]
      · rw [inputQuits_of_blank blank, Bool.and_false]
    rw [nothing, Bool.or_false]
    exact ⟨_, _, _, _, _, _, _, _, rfl⟩
  · next acts =>
    have idle : app.status = .idle := not_not.mp fun busy => acts (.inl busy)
    rw [quitTyped, decide_eq_true idle, Bool.true_and]
    split
    · next command colon =>
      have quits : inputQuits app.input.chars = isQuit (Lines.trim command) := by
        simp only [inputQuits, colon]
      obtain ⟨transcript, status, channels, overlay, theme, themeColor, frame⟩ :=
        handleCommand_frame
        { app with input := app.input.clear, screen := .chat } outside (Lines.trim command)
      rw [frame, quits]
      exact ⟨_, _, _, _, _, _, _, _, rfl⟩
    · next plain =>
      have stays : inputQuits app.input.chars = false := by
        rw [inputQuits]
        split
        · next command colon => exact (plain command colon).elim
        · rfl
      rw [stays, Bool.or_false]
      exact ⟨_, _, _, _, _, _, _, _, rfl⟩

/-- A key of the input line quits when it enters a line that says so. -/
theorem handleInputKey_frame {outside : Outside} {key : KeyEvent}
    (handled : app.handleInputKey outside key = some next) :
    ∃ input screen transcript status channels overlay theme themeColor, next =
      { app with
        shouldQuit := app.shouldQuit || (key.code = .enter && app.quitTyped), input, screen,
          transcript, status,
        channels, overlay, theme, themeColor } := by
  have edited {op : InputOp} (edits : app.editInput op = some next)
      (other : decide (key.code = .enter) = false) :
      ∃ input screen transcript status channels overlay theme themeColor, next =
        { app with
          shouldQuit := app.shouldQuit || (key.code = .enter && app.quitTyped), input, screen,
          transcript, status, channels, overlay, theme, themeColor } := by
    obtain ⟨input, rfl⟩ := editInput_frame edits
    rw [other, Bool.false_and, Bool.or_false]
    exact ⟨input, _, _, _, _, _, _, _, rfl⟩
  have scrolled {scroll : Transcript → Transcript}
      (moves : some (app.scrollChat scroll) = some next)
      (other : decide (key.code = .enter) = false) :
      ∃ input screen transcript status channels overlay theme themeColor, next =
        { app with
          shouldQuit := app.shouldQuit || (key.code = .enter && app.quitTyped), input, screen,
          transcript, status, channels, overlay, theme, themeColor } := by
    rw [← Option.some.inj moves, other, Bool.false_and, Bool.or_false, scrollChat]
    split <;> exact ⟨_, _, _, _, _, _, _, _, rfl⟩
  rw [handleInputKey] at handled
  cases code : key.code with
  | char char =>
      rw [code] at handled edited
      dsimp only at handled
      split at handled <;> exact edited handled rfl
  | enter =>
      rw [code] at handled
      obtain ⟨input, screen, transcript, status, channels, overlay, theme, themeColor, frame⟩ :=
        handleEnter_frame app outside
      refine ⟨input, screen, transcript, status, channels, overlay, theme, themeColor, ?_⟩
      rw [← Option.some.inj handled, frame, decide_eq_true rfl, Bool.true_and]
  | backspace | delete | left | right | home | toEnd =>
      rw [code] at handled edited
      exact edited handled rfl
  | up | down | pageUp | pageDown =>
      rw [code] at handled scrolled
      exact scrolled handled rfl
  | esc | other =>
      rw [code] at handled
      cases handled
      rw [decide_eq_false (by simp), Bool.false_and, Bool.or_false]
      exact ⟨_, _, _, _, _, _, _, _, rfl⟩

/-- A key of an overlay neither quits nor changes the input. -/
theorem handleOverlayKey_frame {outside : Outside} {key : KeyEvent} {overlay : Overlay}
    (handled : handleOverlayKey uuid app outside key overlay = some next) :
    ∃ screen transcript status channels overlay theme themeColor,
      next = { app with screen, transcript, status, channels, overlay, theme, themeColor } := by
  unfold handleOverlayKey at handled
  dsimp only at handled
  split at handled
  · cases handled
    exact ⟨_, _, _, _, _, _, _, rfl⟩
  · cases overlay with
    | modelPicker items selected =>
        dsimp only at handled
        split at handled <;> cases handled
        · split <;> exact ⟨_, _, _, _, _, _, _, rfl⟩
        · exact ⟨_, _, _, _, _, _, _, rfl⟩
    | sessionPicker sessions selected =>
        dsimp only at handled
        split at handled <;> cases handled
        · split
          · next meta_ _ =>
            obtain ⟨transcript, status, channels, frame⟩ := openSession_frame uuid
              { app with overlay := none, screen := .chat } outside meta_
            exact ⟨_, transcript, status, channels, _, _, _, frame⟩
          · exact ⟨_, _, _, _, _, _, _, rfl⟩
        · exact ⟨_, _, _, _, _, _, _, rfl⟩
    | themePicker selected =>
        dsimp only at handled
        split at handled
        · obtain ⟨name, _, rfl⟩ := Option.map_eq_some_iff.mp handled
          obtain ⟨theme, themeColor, transcript, frame⟩ := applyTheme_frame
            { app with overlay := none, screen := .chat } outside name
          exact ⟨_, transcript, _, _, _, theme, themeColor, frame⟩
        · cases handled
          exact ⟨_, _, _, _, _, _, _, rfl⟩
    | configViewer | mcpViewer | skillsViewer =>
        cases handled
        exact ⟨_, _, _, _, _, _, _, rfl⟩

end App

end Openheim.Tui
