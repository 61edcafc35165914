import Openheim.Tui.AppFrames

/-
This file shows that the cached lines of the chat are never out of date: each frame shows a window
of the lines that the items would give in the current width and color.
-/

namespace Openheim.Tui
open Memory

/-- The cached lines are stale, or those of the items. -/
def Transcript.Cached (t : Transcript) (theme : Color) : Prop :=
  t.cachedWidth ≠ 0 → t.cachedLines = buildLines t.cachedWidth theme t.items

def App.Cached (app : App) : Prop := app.transcript.Cached app.theme.color

/-- The cached lines became stale, or nothing changed of what they show. -/
def App.Repaints (before after : App) : Prop :=
  after.transcript.cachedWidth = 0 ∨
    after.transcript.items = before.transcript.items ∧
      after.transcript.cachedLines = before.transcript.cachedLines ∧
      after.transcript.cachedWidth = before.transcript.cachedWidth ∧ after.theme = before.theme

namespace App
variable {uuid : UuidCrate} {app next last : App}

/-- Where the transcript and the theme stay, the cache stays right. -/
theorem Repaints.of_same (transcript : next.transcript = app.transcript)
    (theme : next.theme = app.theme) :
    Repaints app next := .inr ⟨by rw [transcript], by rw [transcript], by rw [transcript], theme⟩

/-- Two changes that repaint what they must repaint do so together. -/
theorem Repaints.trans (first : Repaints app next) (second : Repaints next last) :
    Repaints app last := by
  rcases second with stale | ⟨items, lines, width, theme⟩
  · exact .inl stale
  · rcases first with stale | ⟨items', lines', width', theme'⟩
    · exact .inl (width.trans stale)
    · exact .inr ⟨items.trans items', lines.trans lines', width.trans width', theme.trans theme'⟩

/-- A change that repaints what it must leaves the cache right. -/
theorem Repaints.cached (repaints : Repaints app next) (cached : app.Cached) : next.Cached := by
  intro fresh
  rcases repaints with stale | ⟨items, lines, width, theme⟩
  · exact absurd stale fresh
  · rw [width] at fresh ⊢
    rw [items, lines, theme]
    exact cached fresh

/-- Items that are pushed are repainted. -/
theorem repaints_pushAll (app : App) (items : List ChatItem) :
    Repaints app (items.foldl push app) := by
  induction items generalizing app with
  | nil => exact .of_same rfl rfl
  | cons item items ih =>
      have first : Repaints app (app.push item) := .inl rfl
      exact first.trans (ih _)

/-- Every update repaints what it changes. -/
theorem repaints_handleUpdate (app : App) (update : AgentUpdate) :
    Repaints app (app.handleUpdate update) := by
  cases update with
  | stream event =>
      cases event with
      | llmResponse content =>
          refine .inl ?_
          show (app.transcript.appendAssistantText content).cachedWidth = 0
          rw [Transcript.appendAssistantText]
          split <;> rfl
      | thinkingContent content =>
          refine .inl ?_
          show (app.transcript.appendThinking content).cachedWidth = 0
          rw [Transcript.appendThinking]
          split <;> rfl
      | toolCall | toolResult | contextTrimmed => exact .inl rfl
      | usage | finished | iterationStart | messageAppended => exact .of_same rfl rfl
  | error | notice | modelChanged => exact .inl rfl
  | usage usage => exact .of_same rfl rfl
  | sessionList sessions =>
      cases sessions with
      | nil => exact .inl rfl
      | cons first rest => exact .of_same rfl rfl
  | history items => exact repaints_pushAll app items
  | newSession items =>
      have cleared : Repaints app { app with
          transcript := app.transcript.clear, contextUsage := none, status := .idle } := .inl rfl
      exact cleared.trans (repaints_pushAll _ items)

/-- A decision repaints the note about it. -/
theorem repaints_resolvePermission {decision : PermissionDecision}
    (resolved : app.resolvePermission decision = some next) : Repaints app next := by
  obtain ⟨permissions, _, rfl⟩ := Option.map_eq_some_iff.mp resolved
  split
  · exact .inl rfl
  · exact .of_same rfl rfl

/-- Every key at the prompt repaints what it changes. -/
theorem repaints_handlePermissionKey {key : KeyEvent}
    (handled : app.handlePermissionKey key = some next) :
    Repaints app next := by
  have select {action : QueueAction}
      (moved : ((queueMachine.step app.permissions action).map fun permissions =>
      { app with permissions }) = some next) : Repaints app next := by
    obtain ⟨permissions, _, rfl⟩ := Option.map_eq_some_iff.mp moved
    exact .of_same rfl rfl
  rw [handlePermissionKey] at handled
  cases code : key.code with
  | up | down =>
      rw [code] at handled
      exact select handled
  | enter =>
      rw [code] at handled
      obtain ⟨decision, _, resolved⟩ := Option.bind_eq_some_iff.mp handled
      exact repaints_resolvePermission resolved
  | char char =>
      rw [code] at handled
      dsimp only at handled
      split at handled
      · exact repaints_resolvePermission handled
      · split at handled
        · exact repaints_resolvePermission handled
        · split at handled
          · exact repaints_resolvePermission handled
          · split at handled
            · exact repaints_resolvePermission handled
            · cases handled
              exact .of_same rfl rfl
  | _ =>
      rw [code] at handled
      cases handled
      exact .of_same rfl rfl

/-- A theme is chosen, and the lines are stale. -/
theorem stale_applyTheme (app : App) (outside : Outside) (name : String) :
    (app.applyTheme outside name).transcript.cachedWidth = 0 := by
  rw [applyTheme]
  split <;> rfl

/-- Another session makes the cache stale. -/
theorem stale_openSession (app : App) (outside : Outside) (meta_ : ConversationMeta) :
    (openSession uuid app outside meta_).transcript.cachedWidth = 0 := by
  rw [openSession]
  split
  · split <;> rfl
  · rfl

/-- Every command repaints what it changes. -/
theorem repaints_handleCommand (app : App) (outside : Outside) (cmd : List Char) :
    Repaints app (app.handleCommand outside cmd) := by
  unfold handleCommand
  dsimp only
  split
  · exact .of_same rfl rfl
  · exact .of_same rfl rfl
  · exact .inl rfl
  · rw [startNewSession]
    split
    · exact .of_same rfl rfl
    · exact .inl rfl
  · exact .of_same rfl rfl
  · exact .of_same rfl rfl
  · split
    · exact .inl rfl
    · exact .of_same rfl rfl
  · split
    · exact .of_same rfl rfl
    · split
      · exact .of_same rfl rfl
      · exact .inl rfl
  · split
    · exact .inl rfl
    · exact .of_same rfl rfl
    · exact .inl rfl
  · split
    · exact .of_same rfl rfl
    · split
      · exact .inl (stale_applyTheme app outside _)
      · exact .inl rfl
  · exact .inl rfl

/-- Every key of the input line repaints what it changes. -/
theorem repaints_handleInputKey {outside : Outside} {key : KeyEvent}
    (handled : app.handleInputKey outside key = some next) : Repaints app next := by
  have edited {op : InputOp} (edits : app.editInput op = some next) : Repaints app next := by
    obtain ⟨input, rfl⟩ := editInput_frame edits
    exact .of_same rfl rfl
  have scrolled (scroll : Transcript → Transcript)
      (moves : some (app.scrollChat scroll) = some next)
      (keeps : Repaints app { app with transcript := scroll app.transcript }) :
      Repaints app next := by
    rw [← Option.some.inj moves, scrollChat]
    split
    · exact keeps
    · exact .of_same rfl rfl
  rw [handleInputKey] at handled
  cases code : key.code with
  | char char =>
      rw [code] at handled
      dsimp only at handled
      split at handled <;> exact edited handled
  | enter =>
      rw [code] at handled
      rw [← Option.some.inj handled, handleEnter]
      dsimp only
      split
      · exact .of_same rfl rfl
      · split
        · next command _ =>
            exact Repaints.trans (.of_same rfl rfl) (repaints_handleCommand _ outside _)
        · exact .inl rfl
  | backspace | delete | left | right | home | toEnd =>
      rw [code] at handled
      exact edited handled
  | up | down | pageUp | pageDown =>
      rw [code] at handled
      exact scrolled _ handled (.inr ⟨rfl, rfl, rfl, rfl⟩)
  | esc | other =>
      rw [code] at handled
      cases handled
      exact .of_same rfl rfl

/-- Every key of an overlay repaints what it changes. -/
theorem repaints_handleOverlayKey {outside : Outside} {key : KeyEvent} {overlay : Overlay}
    (handled : handleOverlayKey uuid app outside key overlay = some next) : Repaints app next := by
  unfold handleOverlayKey at handled
  dsimp only at handled
  split at handled
  · cases handled
    exact .of_same rfl rfl
  · cases overlay with
    | modelPicker items selected =>
        dsimp only at handled
        split at handled <;> cases handled
        · split <;> exact .of_same rfl rfl
        · exact .of_same rfl rfl
    | sessionPicker sessions selected =>
        dsimp only at handled
        split at handled <;> cases handled
        · split
          · exact .inl (stale_openSession _ outside _)
          · exact .of_same rfl rfl
        · exact .of_same rfl rfl
    | themePicker selected =>
        dsimp only at handled
        split at handled
        · obtain ⟨name, _, rfl⟩ := Option.map_eq_some_iff.mp handled
          exact .inl (stale_applyTheme _ outside name)
        · cases handled
          exact .of_same rfl rfl
    | configViewer | mcpViewer | skillsViewer =>
        cases handled
        exact .of_same rfl rfl

/-- Every key repaints what it changes. -/
theorem repaints_handleKey {now : Instant} {outside : Outside} {gone : List (List Nat)}
    {key : KeyEvent}
    (handled : handleKey uuid app now outside gone key = some next) : Repaints app next := by
  rw [handleKey] at handled
  split at handled
  · cases handled
    rw [handleCtrlC]
    split <;> exact .of_same rfl rfl
  · obtain ⟨pruned, prunes, handled⟩ := Option.bind_eq_some_iff.mp handled
    obtain ⟨permissions, rfl⟩ := pruneStale_frame prunes
    have kept : Repaints app { app with quitArmedUntil := none, permissions } := .of_same rfl rfl
    refine kept.trans ?_
    split at handled
    · exact repaints_handlePermissionKey handled
    · split at handled
      · exact repaints_handleOverlayKey handled
      · exact repaints_handleInputKey handled

end App

section Frames
variable {t : Transcript} {width height : Nat} {theme : Color}

/-- A refresh brings the lines of the cache up to date. -/
theorem Transcript.Cached.refresh (cached : t.Cached theme) (wide : 0 < width) :
    (t.refresh width theme).cachedLines = buildLines width theme t.items ∧
      (t.refresh width theme).Cached theme := by
  rw [Transcript.refresh]
  split
  · next same =>
    subst same
    exact ⟨cached (Nat.pos_iff_ne_zero.mp wide), cached⟩
  · exact ⟨rfl, fun _ => rfl⟩

/-- A frame leaves the cached lines right, also when it has no width. -/
theorem Transcript.Cached.draw (cached : t.Cached theme) (width height : Nat) :
    (t.draw width height theme).1.Cached theme := by
  have kept {other : Transcript} (fresh : other.Cached theme) (maxScroll : Nat) :
      (other.settle maxScroll).Cached theme := by
    rw [Transcript.settle]
    split <;> exact fresh
  refine kept ?_ _
  by_cases wide : 0 < width
  · exact (cached.refresh wide).2
  · rw [Transcript.refresh, Nat.eq_zero_of_not_pos wide]
    split
    · exact cached
    · exact fun fresh => absurd rfl fresh

/-- Where the window of so many lines begins: at the last ones when the view follows the bottom, and
otherwise where it was scrolled to, as far as there are lines. -/
def Transcript.windowStart (t : Transcript) (lines height : Nat) : Nat :=
  if t.pinned then lines - height else min t.scroll (lines - height)

/-- The scroll position settles at the start of the window. -/
theorem Transcript.settle_scroll (t : Transcript) (lines height : Nat) :
    (t.settle (lines - height)).scroll = t.windowStart lines height := by
  rw [Transcript.settle, Transcript.windowStart]
  split <;> rfl

/-- What is drawn are the lines of the window. -/
theorem Transcript.Cached.visible (cached : t.Cached theme) (wide : 0 < width) (height : Nat) :
    (t.draw width height theme).2.1 =
      ((buildLines width theme t.items).drop
          (t.windowStart (buildLines width theme t.items).length height)).take
        height := by
  obtain ⟨lines, _⟩ := cached.refresh wide
  have start : (t.refresh width theme).windowStart = t.windowStart := by
    unfold Transcript.windowStart Transcript.refresh
    split <;> rfl
  have kept :
      ((t.refresh width theme).settle
        ((t.refresh width theme).cachedLines.length - height)).cachedLines =
      buildLines width theme t.items := by
    rw [← lines, Transcript.settle]
    split <;> rfl
  rw [Transcript.draw]
  dsimp only
  rw [kept, Transcript.settle_scroll, start, lines]
  generalize buildLines width theme t.items = all
  generalize t.windowStart all.length height = first
  split
  · rw [List.take_eq_take_iff, List.length_drop]
    omega
  · rw [eq_comm, List.take_eq_nil_iff, List.drop_eq_nil_iff]
    omega

end Frames

/-- Whatever happened before, a frame of the chat shows a window of the lines of its items, in the
width of the frame and the current color. -/
theorem frame_shows_chat {uuid : UuidCrate} {app after : App} {gone : List (List Nat)}
    {width height : Nat}
    {shown : List Line} (reached : (appMachine uuid).Reachable app) (chat : app.screen = .chat)
    (wide : 0 < width) (drawn : app.draw gone width height = some (after, shown)) :
    let lines := buildLines width app.theme.color app.transcript.items
    shown = (lines.drop (app.transcript.windowStart lines.length height)).take height := by
  have cached : app.Cached := by
    refine reached.invariant ?_ fun app event next cached _ stepped => ?_
    · rintro _ ⟨_, _, _, _, _, rfl⟩
      exact fun fresh => absurd rfl fresh
    · cases event with
      | tick =>
          cases stepped
          exact cached
      | key => exact (App.repaints_handleKey stepped).cached cached
      | paste gone text =>
          obtain ⟨pruned, prunes, handled⟩ := Option.bind_eq_some_iff.mp stepped
          obtain ⟨permissions, rfl⟩ := App.pruneStale_frame prunes
          split at handled
          · cases handled
            exact cached
          · obtain ⟨input, rfl⟩ := App.editInput_frame handled
            exact cached
      | resize =>
          cases stepped
          exact fun fresh => absurd rfl fresh
      | update update =>
          cases stepped
          exact (App.repaints_handleUpdate app update).cached cached
      | permissionRequest toolName arguments subagent =>
          obtain ⟨permissions, _, rfl⟩ := Option.map_eq_some_iff.mp stepped
          exact cached
      | draw gone width height =>
          obtain ⟨drawn, draws, rfl⟩ := Option.map_eq_some_iff.mp stepped
          obtain ⟨pruned, prunes, rfl⟩ := Option.map_eq_some_iff.mp draws
          obtain ⟨permissions, rfl⟩ := App.pruneStale_frame prunes
          dsimp only
          split
          · exact cached
          · exact cached.draw width height
  obtain ⟨pruned, prunes, same⟩ := Option.map_eq_some_iff.mp drawn
  obtain ⟨permissions, rfl⟩ := App.pruneStale_frame prunes
  rw [chat] at same
  cases same
  exact cached.visible wide height

/-- The user opens a saved session, a reply is streamed, and frames of several
widths are drawn meanwhile. -/
def chattingEvents : List AppEvent :=
  [.update (.sessionList [.new 0 0 none none []]), plainKey .enter, .draw [] 40 10,
    .update (.stream (.llmResponse "Let me")), .draw [] 40 10,
      .update (.stream (.llmResponse " look.")), .draw [] 20 4]

/-- While a reply is streamed, a frame of three lines shows the window of the chat. -/
theorem frame_shows_chat_sample :
    ∃ app after shown, (appMachine Uuid.crate).exec startedApp chattingEvents = some app ∧
    app.draw [] 40 3 = some (after, shown) ∧
      let lines := buildLines 40 app.theme.color app.transcript.items
      shown = (lines.drop (app.transcript.windowStart lines.length 3)).take 3 := by
  obtain ⟨app, after, shown, executed, chat, drawn⟩ : ∃ app after shown,
      (appMachine Uuid.crate).exec startedApp chattingEvents = some app ∧ app.screen = .chat ∧
        app.draw [] 40 3 = some (after, shown) := ⟨_, _, _, rfl, rfl, rfl⟩
  have started : (appMachine Uuid.crate).start startedApp := ⟨_, _, _, _, _, rfl⟩
  exact ⟨app, after, shown, executed, drawn,
    frame_shows_chat (Machine.reachable_of_exec started executed) chat (by decide) drawn⟩

end Openheim.Tui
