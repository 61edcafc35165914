import Openheim.Tui.AppFrames

/-
This file says what keys and pastes ask of the agent task, and that whoever makes the interface busy
asks for something that ends.
-/

namespace Openheim.Tui
open Memory

/-- The task answers this command with updates that make the interface idle again. -/
def AgentCommand.starts : AgentCommand → Bool
  | .prompt _ | .newSession => true
  | _ => false

/-- What the interface asks for between two states, none of it a cancel. It becomes busy only with a
command that ends. -/
structure Requests (before after : App) : Prop where
  agentConfig : after.agentConfig = before.agentConfig
  alive : after.channels.receiverAlive = before.channels.receiverAlive
  cancel : after.channels.cancel = before.channels.cancel
  commands : before.channels.receiverAlive = true → ∃ sent,
    after.channels.commands = before.channels.commands ++ sent ∧
      (after.status = before.status ∨ after.status = .idle ∨ ∃ command ∈ sent, command.starts)

namespace App
variable {uuid : UuidCrate} {app next : App}

/-- Nothing is asked. -/
theorem requests_same (agentConfig : next.agentConfig = app.agentConfig)
    (channels : next.channels = app.channels)
    (status : next.status = app.status ∨ next.status = .idle) : Requests app next where
  agentConfig := agentConfig
  alive := by rw [channels]
  cancel := by rw [channels]
  commands _ := ⟨[], by rw [channels, List.append_nil], status.imp_right .inl⟩

/-- Two changes ask for what each of them asks for. -/
theorem requests_trans {middle : App} (first : Requests app middle)
    (second : Requests middle next) :
    Requests app next where
  agentConfig := second.agentConfig.trans first.agentConfig
  alive := second.alive.trans first.alive
  cancel := second.cancel.trans first.cancel
  commands alive := by
    obtain ⟨sent, commands, status⟩ := first.commands alive
    obtain ⟨more, later, final⟩ := second.commands (first.alive.trans alive)
    refine ⟨sent ++ more, by rw [later, commands, List.append_assoc], ?_⟩
    rcases final with same | idle | ⟨command, member, starts⟩
    · rw [same]
      exact status.imp_right fun rest => rest.imp_right fun ⟨command, member, starts⟩ =>
        ⟨command, List.mem_append_left _ member, starts⟩
    · exact .inr (.inl idle)
    · exact .inr (.inr ⟨command, List.mem_append_right _ member, starts⟩)

/-- One command is sent, and the interface becomes busy with no other than one that ends. -/
theorem requests_send (app : App) (status : Status) (command : AgentCommand)
    (busy : status = app.status ∨ status = .idle ∨ command.starts) :
    Requests app (send { app with status } command) where
  agentConfig := rfl
  alive := by
    rw [send, AgentChannels.send]
    split <;> rfl
  cancel := by
    rw [send, AgentChannels.send]
    split <;> rfl
  commands alive := by
    have sent : (AgentChannels.send app.channels command).commands =
        app.channels.commands ++ [command] := by
      rw [AgentChannels.send, if_pos alive]
    exact ⟨[command], sent, busy.imp_right fun rest => rest.imp_right fun starts =>
      ⟨command, List.mem_singleton_self command, starts⟩⟩

theorem requests_asks (app : App) (command : AgentCommand) : Requests app (app.send command) :=
  requests_send app app.status command (.inl rfl)

/-- A theme asks for nothing. -/
theorem requests_applyTheme (app : App) (outside : Outside) (name : String) :
    Requests app (app.applyTheme outside name) := by
  obtain ⟨theme, themeColor, transcript, frame⟩ := applyTheme_frame app outside name
  rw [frame]
  exact requests_same rfl rfl (.inl rfl)

/-- Opening a session asks for it. -/
theorem requests_openSession (app : App) (outside : Outside) (meta_ : ConversationMeta) :
    Requests app (openSession uuid app outside meta_) := by
  rw [openSession]
  refine requests_trans ?_ (requests_asks _ _)
  split
  · split <;> exact requests_same rfl rfl (.inr rfl)
  · exact requests_same rfl rfl (.inr rfl)

/-- A new session is asked for. -/
theorem requests_startNewSession (app : App) : Requests app app.startNewSession := by
  rw [startNewSession]
  split
  · exact requests_send app .thinking .newSession (.inr (.inr rfl))
  · exact requests_same rfl rfl (.inr rfl)

/-- A command asks for nothing that cancels, and begins nothing that does not end. -/
theorem requests_handleCommand (app : App) (outside : Outside) (cmd : List Char) :
    Requests app (app.handleCommand outside cmd) := by
  unfold handleCommand
  dsimp only
  split
  · exact requests_same rfl rfl (.inl rfl)
  · exact requests_same rfl rfl (.inl rfl)
  · exact requests_same rfl rfl (.inl rfl)
  · exact requests_startNewSession app
  · exact requests_asks app .listSessions
  · exact requests_same rfl rfl (.inl rfl)
  · split <;> exact requests_same rfl rfl (.inl rfl)
  · split
    · exact requests_same rfl rfl (.inl rfl)
    · split
      · exact requests_asks app _
      · exact requests_same rfl rfl (.inl rfl)
  · split <;> exact requests_same rfl rfl (.inl rfl)
  · split
    · exact requests_same rfl rfl (.inl rfl)
    · split
      · exact requests_applyTheme app outside _
      · exact requests_same rfl rfl (.inl rfl)
  · exact requests_same rfl rfl (.inl rfl)

/-- Entering a line asks for nothing that cancels. -/
theorem requests_handleEnter (app : App) (outside : Outside) :
    Requests app (app.handleEnter outside) := by
  rw [handleEnter]
  dsimp only
  split
  · exact requests_same rfl rfl (.inl rfl)
  · have cleared : Requests app { app with input := app.input.clear, screen := .chat } :=
      requests_same rfl rfl (.inl rfl)
    split
    · exact requests_trans cleared (requests_handleCommand _ outside _)
    · have shown : Requests app { app with
          input := app.input.clear, screen := .chat
          transcript :=
              (app.transcript.push
                  (.userMessage (String.ofList (promptText app.input.chars)))).pin } :=
        requests_same rfl rfl (.inl rfl)
      exact requests_trans shown (requests_send _ .thinking _ (.inr (.inr rfl)))

/-- No key of the input line cancels. -/
theorem requests_handleInputKey {outside : Outside} {key : KeyEvent}
    (handled : app.handleInputKey outside key = some next) : Requests app next := by
  have edited {op : InputOp} (edits : app.editInput op = some next) : Requests app next := by
    obtain ⟨input, rfl⟩ := editInput_frame edits
    exact requests_same rfl rfl (.inl rfl)
  have scrolled {scroll : Transcript → Transcript}
      (moves : some (app.scrollChat scroll) = some next) :
      Requests app next := by
    rw [← Option.some.inj moves, scrollChat]
    split <;> exact requests_same rfl rfl (.inl rfl)
  rw [handleInputKey] at handled
  cases code : key.code with
  | char char =>
      rw [code] at handled
      dsimp only at handled
      split at handled <;> exact edited handled
  | enter =>
      rw [code] at handled
      cases handled
      exact requests_handleEnter app outside
  | backspace | delete | left | right | home | toEnd =>
      rw [code] at handled
      exact edited handled
  | up | down | pageUp | pageDown =>
      rw [code] at handled
      exact scrolled handled
  | esc | other =>
      rw [code] at handled
      cases handled
      exact requests_same rfl rfl (.inl rfl)

/-- No key of an overlay cancels. -/
theorem requests_handleOverlayKey {outside : Outside} {key : KeyEvent} {overlay : Overlay}
    (handled : handleOverlayKey uuid app outside key overlay = some next) : Requests app next := by
  have closed (screen : Screen) : Requests app { app with overlay := none, screen } :=
    requests_same rfl rfl (.inl rfl)
  unfold handleOverlayKey at handled
  dsimp only at handled
  split at handled
  · cases handled
    exact closed app.screen
  · cases overlay with
    | modelPicker items selected =>
        dsimp only at handled
        split at handled <;> cases handled
        · split
          · exact requests_trans (closed .chat) (requests_asks _ _)
          · exact closed .chat
        · exact requests_same rfl rfl (.inl rfl)
    | sessionPicker sessions selected =>
        dsimp only at handled
        split at handled <;> cases handled
        · split
          · exact requests_trans (closed .chat) (requests_openSession _ outside _)
          · exact requests_same rfl rfl (.inl rfl)
        · exact requests_same rfl rfl (.inl rfl)
    | themePicker selected =>
        dsimp only at handled
        split at handled
        · obtain ⟨name, _, rfl⟩ := Option.map_eq_some_iff.mp handled
          exact requests_trans (closed .chat) (requests_applyTheme _ outside name)
        · cases handled
          exact requests_same rfl rfl (.inl rfl)
    | configViewer | mcpViewer | skillsViewer =>
        cases handled
        exact requests_same rfl rfl (.inl rfl)

/-- The key is a Ctrl-C that cancels a running turn. -/
def cancels (app : App) : AppEvent → Bool
  | .key now _ _ key => isCtrlC key && !app.quitArmed now && decide (app.status ≠ .idle)
  | _ => false

/-- No key but Ctrl-C cancels. -/
theorem requests_handleKey {now : Instant} {outside : Outside} {gone : List (List Nat)}
    {key : KeyEvent}
    (plain : isCtrlC key = false) (handled : handleKey uuid app now outside gone key = some next) :
    Requests app next := by
  rw [handleKey, plain, if_neg Bool.false_ne_true] at handled
  obtain ⟨pruned, prunes, handled⟩ := Option.bind_eq_some_iff.mp handled
  obtain ⟨permissions, rfl⟩ := pruneStale_frame prunes
  have pruned : Requests app { app with quitArmedUntil := none, permissions } :=
    requests_same rfl rfl (.inl rfl)
  refine requests_trans pruned ?_
  split at handled
  · obtain ⟨permissions, transcript, rfl⟩ := handlePermissionKey_frame handled
    exact requests_same rfl rfl (.inl rfl)
  · split at handled
    · exact requests_handleOverlayKey handled
    · exact requests_handleInputKey handled

/-- Every event but a Ctrl-C and an update asks for commands only. -/
theorem requests_step {event : AppEvent} (stepped : app.step uuid event = some next)
    (sent : ∀ update, event ≠ .update update)
    (plain : ∀ now outside gone key, event = .key now outside gone key → isCtrlC key = false) :
    Requests app next := by
  cases event with
  | tick | resize =>
      cases stepped
      exact requests_same rfl rfl (.inl rfl)
  | key now outside gone key => exact requests_handleKey (plain now outside gone key rfl) stepped
  | paste gone text =>
      obtain ⟨pruned, prunes, handled⟩ := Option.bind_eq_some_iff.mp stepped
      obtain ⟨permissions, rfl⟩ := pruneStale_frame prunes
      split at handled
      · cases handled
        exact requests_same rfl rfl (.inl rfl)
      · obtain ⟨input, rfl⟩ := editInput_frame handled
        exact requests_same rfl rfl (.inl rfl)
  | update update => exact absurd rfl (sent update)
  | permissionRequest toolName arguments subagent =>
      obtain ⟨permissions, _, rfl⟩ := Option.map_eq_some_iff.mp stepped
      exact requests_same rfl rfl (.inl rfl)
  | draw gone width height =>
      obtain ⟨drawn, draws, rfl⟩ := Option.map_eq_some_iff.mp stepped
      obtain ⟨pruned, prunes, rfl⟩ := Option.map_eq_some_iff.mp draws
      obtain ⟨permissions, rfl⟩ := pruneStale_frame prunes
      dsimp only
      split <;> exact requests_same rfl rfl (.inl rfl)

/-- A Ctrl-C asks for a cancel, or for nothing. -/
theorem step_ctrlC {now : Instant} {outside : Outside} {gone : List (List Nat)} {key : KeyEvent}
    (pressed : isCtrlC key = true)
    (stepped : app.step uuid (.key now outside gone key) = some next) :
    next.agentConfig = app.agentConfig ∧ next.status = app.status ∧
      next.channels = if app.cancels (.key now outside gone key) then app.channels.sendCancel
        else app.channels := by
  rw [App.step, handleKey, if_pos pressed] at stepped
  cases stepped
  rw [handleCtrlC, cancels, pressed]
  cases armed : app.quitArmed now with
  | true => exact ⟨rfl, rfl, rfl⟩
  | false =>
      refine ⟨rfl, rfl, ?_⟩
      by_cases idle : app.status = .idle <;> simp [idle]

end App

end Openheim.Tui
