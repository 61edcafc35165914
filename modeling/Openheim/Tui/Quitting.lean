import Openheim.Tui.AppFrames

/-
This file shows when the terminal interface quits: the user types the command for it, or presses
Ctrl-C twice in a row within two seconds.
-/

namespace Openheim.Tui
open App Memory

/-- What the user does, in order: a Ctrl-C with its time, or another key or a paste. -/
def stroke : AppEvent → Option (Option Instant)
  | .key now _ _ key => some (if isCtrlC key then some now else none)
  | .paste _ _ => some none
  | _ => none

def strokes (events : List AppEvent) : List (Option Instant) := events.filterMap stroke

/-- One Ctrl-C follows another within the window, and no other key or paste comes between them. -/
def DoubleCtrlC (events : List AppEvent) : Prop :=
  ∃ first second, [some first, some second] <:+: strokes events ∧ second < first + quitConfirmWindow

/-- The input line has the focus, and Enter is pressed on a command that quits. -/
def App.entersQuit (app : App) : AppEvent → Bool
  | .key _ _ gone key => key.code = .enter &&
      (pruneStale { app with quitArmedUntil := none } gone).any fun app =>
        app.permissions.queue.pending = [] && app.overlay.isNone && app.quitTyped
  | _ => false

/-- At some point of the run the user enters a command that quits. -/
def EntersQuit (uuid : UuidCrate) (start : App) (events : List AppEvent) : Prop :=
  ∃ before event after app, events = before ++ event :: after ∧
    (appMachine uuid).exec start before = some app ∧ app.entersQuit event = true

section Strokes
variable {α : Type*} {a b x : α} {l : List α}

/-- A pair of neighbours stands before the last entry, or ends with it. -/
theorem pair_infix_concat : [a, b] <:+: l ++ [x] ↔ [a, b] <:+: l ∨ l.getLast? = some a ∧ b = x := by
  rw [List.infix_concat_iff, or_comm]
  refine or_congr_right ⟨?_, ?_⟩
  · rintro ⟨front, split⟩
    rw [List.append_cons] at split
    obtain ⟨init, last⟩ := List.append_inj' split rfl
    exact ⟨by rw [← init, List.getLast?_concat], List.singleton_injective last⟩
  · rintro ⟨last, rfl⟩
    obtain ⟨front, rfl⟩ := List.getLast?_eq_some_iff.mp last
    exact ⟨front, by simp⟩

end Strokes

section Steps
variable {uuid : UuidCrate} {app next : App} {event : AppEvent}

/-- What is neither a key nor a paste leaves everything about quitting as it is. -/
theorem step_silent (silent : stroke event = none) (stepped : App.step uuid app event = some next) :
    next.shouldQuit = app.shouldQuit ∧ next.quitArmedUntil = app.quitArmedUntil ∧
      app.entersQuit event = false := by
  cases event with
  | tick | resize =>
      cases stepped
      exact ⟨rfl, rfl, rfl⟩
  | key | paste => cases silent
  | update update =>
      cases stepped
      obtain ⟨transcript, status, contextUsage, overlay, agentConfig, frame⟩ :=
        handleUpdate_frame app update
      rw [frame]
      exact ⟨rfl, rfl, rfl⟩
  | permissionRequest toolName arguments subagent =>
      obtain ⟨permissions, _, rfl⟩ := Option.map_eq_some_iff.mp stepped
      exact ⟨rfl, rfl, rfl⟩
  | draw gone width height =>
      obtain ⟨drawn, draws, rfl⟩ := Option.map_eq_some_iff.mp stepped
      obtain ⟨pruned, prunes, rfl⟩ := Option.map_eq_some_iff.mp draws
      obtain ⟨permissions, rfl⟩ := pruneStale_frame prunes
      dsimp only
      split <;> exact ⟨rfl, rfl, rfl⟩

/-- Another key or a paste means that the next Ctrl-C is a first one, and
it quits only as a command. -/
theorem step_other (other : stroke event = some none)
    (stepped : App.step uuid app event = some next) :
    next.quitArmedUntil = none ∧ next.shouldQuit = (app.shouldQuit || app.entersQuit event) := by
  cases event with
  | key now outside gone key =>
      have plain : isCtrlC key = false := by
        rw [stroke, Option.some.injEq, ite_eq_right_iff] at other
        exact Bool.eq_false_iff.mpr fun pressed => by cases other pressed
      have handled : App.handleKey uuid app now outside gone key = some next := stepped
      rw [handleKey, plain, if_neg Bool.false_ne_true] at handled
      obtain ⟨pruned, prunes, handled⟩ := Option.bind_eq_some_iff.mp handled
      rw [entersQuit, prunes]
      obtain ⟨permissions, rfl⟩ := pruneStale_frame prunes
      dsimp only at handled
      split at handled
      · next waiting =>
        obtain ⟨_, _, rfl⟩ := handlePermissionKey_frame handled
        simp [waiting]
      · next quiet =>
        have none_waits : permissions.queue.pending = [] := not_not.mp quiet
        split at handled
        · next overlay found =>
          obtain ⟨_, _, _, _, _, _, _, rfl⟩ := handleOverlayKey_frame handled
          simp [found]
        · next free =>
          obtain ⟨_, _, _, _, _, _, _, _, rfl⟩ := handleInputKey_frame handled
          simp [none_waits, free]
  | paste gone text =>
      have handled : app.handlePaste gone text = some next := stepped
      obtain ⟨pruned, prunes, handled⟩ := Option.bind_eq_some_iff.mp handled
      obtain ⟨permissions, rfl⟩ := pruneStale_frame prunes
      rw [entersQuit, Bool.or_false]
      · split at handled
        · cases handled
          exact ⟨rfl, rfl⟩
        · obtain ⟨input, rfl⟩ := editInput_frame handled
          exact ⟨rfl, rfl⟩
      · simp
  | _ => cases other

theorem step_ctrlC {now : Instant} (pressed : stroke event = some (some now))
    (stepped : App.step uuid app event = some next) :
    next = app.handleCtrlC now ∧ app.entersQuit event = false := by
  cases event with
  | key time outside gone key =>
      rw [stroke, Option.some.injEq] at pressed
      split at pressed
      · next ctrlC =>
        cases pressed
        have handled : App.handleKey uuid app now outside gone key = some next := stepped
        rw [handleKey, if_pos ctrlC] at handled
        refine ⟨(Option.some.inj handled).symm, ?_⟩
        rw [isCtrlC, Bool.and_eq_true, decide_eq_true_eq] at ctrlC
        rw [entersQuit, ctrlC.1]
        rfl
      · cases pressed
  | _ => cases pressed

end Steps

section Runs
variable {uuid : UuidCrate} {start app next : App} {events : List AppEvent} {event : AppEvent}

theorem strokes_concat (events : List AppEvent) (event : AppEvent) :
    strokes (events ++ [event]) = strokes events ++ (stroke event).toList := by
  rw [strokes, strokes, List.filterMap_append]
  cases found : stroke event <;> simp [found]

/-- Only a Ctrl-C soon after another one completes a pair. -/
theorem doubleCtrlC_concat (events : List AppEvent) (event : AppEvent) :
    DoubleCtrlC (events ++ [event]) ↔ DoubleCtrlC events ∨ ∃ first second,
      stroke event = some (some second) ∧
      (strokes events).getLast? = some (some first) ∧ second < first + quitConfirmWindow := by
  rw [DoubleCtrlC, DoubleCtrlC, strokes_concat]
  cases found : stroke event with
  | none => simp
  | some last =>
      simp only [Option.toList_some, pair_infix_concat, or_and_right, exists_or, Option.some.injEq]
      refine or_congr_right ⟨?_, ?_⟩
      · rintro ⟨first, second, ⟨before, rfl⟩, soon⟩
        exact ⟨first, second, rfl, before, soon⟩
      · rintro ⟨first, second, rfl, before, soon⟩
        exact ⟨first, second, ⟨before, rfl⟩, soon⟩

theorem entersQuit_concat (before : (appMachine uuid).exec start events = some app) :
    EntersQuit uuid start (events ++ [event]) ↔ EntersQuit uuid start events ∨
      app.entersQuit event = true := by
  constructor
  · rintro ⟨front, quitting, rest, found, split, executed, quits⟩
    rcases List.eq_nil_or_concat rest with rfl | ⟨rest, last, rfl⟩
    · obtain ⟨rfl, same⟩ := List.append_inj' split rfl
      cases same
      rw [executed] at before
      exact .inr (Option.some.inj before ▸ quits)
    · rw [List.concat_eq_append, ← List.cons_append, ← List.append_assoc] at split
      exact .inl ⟨front, quitting, rest, found, (List.append_inj' split rfl).1, executed, quits⟩
  · rintro (⟨front, quitting, rest, found, rfl, executed, quits⟩ | quits)
    · exact ⟨front, quitting, rest ++ [event], found, by simp, executed, quits⟩
    · exact ⟨events, event, [], app, rfl, before, quits⟩

/-- What is known about quitting after some events: whether the interface quits,
and when a Ctrl-C would do it. -/
structure QuitKnown (uuid : UuidCrate) (start : App) (events : List AppEvent)
    (app : App) : Prop where
  quits : app.shouldQuit = true ↔ DoubleCtrlC events ∨ EntersQuit uuid start events
  armed : app.shouldQuit = false →
    app.quitArmedUntil = (strokes events).getLast?.join.map (· + quitConfirmWindow)

theorem handleCtrlC_quits (app : App) (now : Instant) :
    (app.handleCtrlC now).shouldQuit = (app.quitArmed now || app.shouldQuit) := by
  rw [handleCtrlC]
  split
  · next armed => rw [armed, Bool.true_or]
  · next calm => rw [Bool.eq_false_iff.mpr calm, Bool.false_or]

theorem handleCtrlC_armed {now : Instant} (calm : app.quitArmed now = false) :
    (app.handleCtrlC now).quitArmedUntil = some (now + quitConfirmWindow) := by
  rw [handleCtrlC, calm, if_neg Bool.false_ne_true]

/-- An interface that goes on is armed by the last Ctrl-C. -/
theorem QuitKnown.quitArmed_iff (known : QuitKnown uuid start events app)
    (running : app.shouldQuit = false) (now : Instant) : app.quitArmed now = true ↔
      ∃ first, (strokes events).getLast? = some (some first) ∧ now < first + quitConfirmWindow := by
  rw [quitArmed, known.armed running]
  cases last : (strokes events).getLast? with
  | none => exact iff_of_false Bool.false_ne_true fun ⟨_, found, _⟩ => nomatch found
  | some pressed =>
      cases pressed with
      | none => exact iff_of_false Bool.false_ne_true fun ⟨_, found, _⟩ => nomatch found
      | some first =>
          rw [Option.join_some, Option.map_some, Option.any_some, decide_eq_true_eq]
          refine ⟨fun soon => ⟨first, rfl, soon⟩, ?_⟩
          rintro ⟨_, same, soon⟩
          rw [Option.some.inj (Option.some.inj same)]
          exact soon

theorem QuitKnown.step (known : QuitKnown uuid start events app)
    (before : (appMachine uuid).exec start events = some app)
    (stepped : App.step uuid app event = some next) :
    QuitKnown uuid start (events ++ [event]) next := by
  cases found : stroke event with
  | none =>
      obtain ⟨quits, armed, stays⟩ := step_silent found stepped
      refine ⟨?_, fun running => ?_⟩
      · rw [quits, known.quits, doubleCtrlC_concat, entersQuit_concat before, found, stays]
        simp
      · rw [armed, known.armed (quits ▸ running), strokes_concat, found, Option.toList_none,
          List.append_nil]
  | some pressed =>
      cases pressed with
      | none =>
          obtain ⟨armed, quits⟩ := step_other found stepped
          refine ⟨?_, fun _ => ?_⟩
          · rw [quits, Bool.or_eq_true, known.quits, doubleCtrlC_concat,
              entersQuit_concat before, found]
            simp [or_assoc]
          · rw [armed, strokes_concat, found, Option.toList_some, List.getLast?_concat]
            rfl
      | some now =>
          obtain ⟨rfl, stays⟩ := step_ctrlC found stepped
          have pairs : DoubleCtrlC (events ++ [event]) ↔ DoubleCtrlC events ∨ ∃ first,
              (strokes events).getLast? = some (some first) ∧ now < first + quitConfirmWindow := by
            rw [doubleCtrlC_concat, found]
            simp
          refine ⟨?_, fun running => ?_⟩
          · rw [handleCtrlC_quits, pairs, entersQuit_concat before, stays, Bool.or_eq_true]
            cases quitting : app.shouldQuit with
            | true =>
                have already := known.quits.mp quitting
                simp only [or_true, Bool.false_eq_true, or_false, true_iff]
                exact already.imp_left .inl
            | false =>
                have fresh : ¬ (DoubleCtrlC events ∨ EntersQuit uuid start events) := by
                  rw [← known.quits, quitting]
                  exact Bool.false_ne_true
                rw [not_or] at fresh
                simp only [known.quitArmed_iff quitting now, fresh.1, fresh.2, Bool.false_eq_true,
                  or_false, false_or]
          · rw [handleCtrlC_quits, Bool.or_eq_false_iff] at running
            rw [handleCtrlC_armed running.1, strokes_concat, found, Option.toList_some,
              List.getLast?_concat, Option.join_some, Option.map_some]

/-- An interface that was started quits exactly when the user presses Ctrl-C twice
within two seconds, with no other key and no paste in between, or enters a command
that quits while no turn runs. -/
theorem quits_iff (running : start.shouldQuit = false) (unarmed : start.quitArmedUntil = none)
    (executed : (appMachine uuid).exec start events = some app) :
    app.shouldQuit = true ↔ DoubleCtrlC events ∨ EntersQuit uuid start events := by
  suffices known : QuitKnown uuid start events app from known.quits
  induction events using List.reverseRecOn generalizing app with
  | nil =>
      cases executed
      refine ⟨?_, fun _ => unarmed⟩
      rw [running]
      refine iff_of_false Bool.false_ne_true ?_
      rintro (⟨first, second, pair, _⟩ | ⟨_, _, _, _, split, _⟩)
      · exact absurd pair.length_le (by simp [strokes])
      · simp at split
  | append_singleton events event ih =>
      obtain ⟨before, executes, stepped⟩ := Machine.exec_concat executed
      exact (ih executes).step executes stepped

end Runs

/-- Ctrl-C at some time. -/
def pressed (now : Instant) : AppEvent := .key now plainOutside [] ⟨.char 'c', true⟩

/-- The user presses Ctrl-C three times, but a key comes between the first two,
and the third comes too late. -/
def scatteredPresses : List AppEvent :=
  [pressed 0, plainKey (.char 'x'), .update (.notice "done"), pressed 1000000000,
    plainKey .backspace, pressed 2000000000, pressed 4500000000]

/-- The scattered presses quit nothing; one more in time does, and so does the command. -/
theorem quits_sample : ∃ calm quitting entered,
    (appMachine Uuid.crate).exec startedApp scatteredPresses = some calm ∧
    (appMachine Uuid.crate).exec startedApp (scatteredPresses ++ [.update (.notice "more"),
          pressed 5000000000]) =
      some quitting ∧
    (appMachine Uuid.crate).exec startedApp
      (scatteredPresses ++ [plainKey (.char ':'), plainKey (.char 'q'), plainKey .enter]) =
        some entered ∧
    ¬ (DoubleCtrlC scatteredPresses ∨ EntersQuit Uuid.crate startedApp scatteredPresses) ∧
    (DoubleCtrlC (scatteredPresses ++ [.update (.notice "more"), pressed 5000000000]) ∨
      EntersQuit Uuid.crate startedApp (scatteredPresses ++ [.update (.notice "more"),
            pressed 5000000000])) ∧
    (DoubleCtrlC (scatteredPresses ++ [plainKey (.char ':'), plainKey (.char 'q'),
          plainKey .enter]) ∨
      EntersQuit Uuid.crate startedApp
        (scatteredPresses ++ [plainKey (.char ':'), plainKey (.char 'q'), plainKey .enter])) := by
  obtain ⟨calm, stays, goesOn⟩ : ∃ calm,
      (appMachine Uuid.crate).exec startedApp scatteredPresses = some calm ∧
      calm.shouldQuit = false := ⟨_, rfl, rfl⟩
  obtain ⟨quitting, presses, quits⟩ : ∃ quitting, (appMachine Uuid.crate).exec startedApp
      (scatteredPresses ++ [.update (.notice "more"), pressed 5000000000]) = some quitting ∧
      quitting.shouldQuit = true := ⟨_, rfl, rfl⟩
  obtain ⟨entered, enters, ends⟩ : ∃ entered, (appMachine Uuid.crate).exec startedApp
      (scatteredPresses ++ [plainKey (.char ':'), plainKey (.char 'q'), plainKey .enter]) =
      some entered ∧ entered.shouldQuit = true := ⟨_, rfl, rfl⟩
  refine ⟨calm, quitting, entered, stays, presses, enters, fun either => ?_, ?_, ?_⟩
  · rw [(quits_iff rfl rfl stays).mpr either] at goesOn
    cases goesOn
  · exact (quits_iff rfl rfl presses).mp quits
  · exact (quits_iff rfl rfl enters).mp ends

end Openheim.Tui
