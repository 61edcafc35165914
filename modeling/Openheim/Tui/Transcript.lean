import Openheim.Tui.Render

/-
This file follows `Transcript` of `src/tui/state.rs`: the chat on screen, its scroll position and
its cached lines.
-/

namespace Openheim.Tui

/-- The lines are cached for one width; zero says that they are stale. -/
structure Transcript where
  items : List ChatItem
  scroll : Nat
  pinned : Bool
  cachedLines : List Line
  cachedWidth : Nat
  deriving DecidableEq, Repr

namespace Transcript

def new : Transcript := ⟨[], 0, true, [], 0⟩

/-- The lines are built again for the next draw. -/
def invalidate (t : Transcript) : Transcript := { t with cachedWidth := 0 }

def push (t : Transcript) (item : ChatItem) : Transcript :=
  invalidate { t with items := t.items ++ [item] }

/-- Streamed text of a reply goes on with the reply in progress, or begins one. -/
def appendAssistantText (t : Transcript) (content : String) : Transcript :=
  match t.items.getLast? with
  | some (.assistantMessage existing) =>
      invalidate { t with items := t.items.dropLast ++ [.assistantMessage (existing ++ content)] }
  | _ => t.push (.assistantMessage content)

/-- The same for streamed thinking. -/
def appendThinking (t : Transcript) (content : String) : Transcript :=
  match t.items.getLast? with
  | some (.thinking existing) =>
      invalidate { t with items := t.items.dropLast ++ [.thinking (existing ++ content)] }
  | _ => t.push (.thinking content)

def clear (t : Transcript) : Transcript :=
  invalidate { t with items := [], scroll := 0, pinned := true }

def pin (t : Transcript) : Transcript := { t with pinned := true }

def scrollUp (t : Transcript) (lines : Nat) : Transcript :=
  { t with scroll := t.scroll - lines, pinned := false }

def scrollDown (t : Transcript) (lines : Nat) : Transcript := { t with scroll := t.scroll + lines }

/-- The cached lines fit the width from here on. -/
def refresh (t : Transcript) (width : Nat) (theme : Color) : Transcript :=
  if t.cachedWidth = width then t
  else { t with cachedLines := buildLines width theme t.items, cachedWidth := width }

/-- The scroll position stays within the lines, and the bottom pins it. -/
def settle (t : Transcript) (maxScroll : Nat) : Transcript :=
  if t.pinned then { t with scroll := maxScroll }
  else { t with
    scroll := min t.scroll maxScroll, pinned := decide (maxScroll ≤ min t.scroll maxScroll) }

/-- What a draw leaves behind, the visible lines and how far up they are. -/
def draw (t : Transcript) (width height : Nat) (theme : Color) : Transcript × List Line × String :=
  let t := t.refresh width theme
  let maxScroll := t.cachedLines.length - height
  let t := t.settle maxScroll
  let last := min (t.scroll + height) t.cachedLines.length
  let visible :=
    if t.scroll < last then (t.cachedLines.drop t.scroll).take (last - t.scroll) else []
  let scrollHint := if !t.pinned && decide (0 < maxScroll) then
    " " ++ toString (t.scroll * 100 / maxScroll) ++ "% ↑ " else ""
  (t, visible, scrollHint)

end Transcript

end Openheim.Tui
