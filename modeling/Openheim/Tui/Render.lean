import Mathlib.Algebra.GroupWithZero.Nat
import Openheim.Library.Filling
import Openheim.Library.Lines

/-
This file follows what `src/tui/render.rs` draws in the chat: the items of `src/tui/types.rs` become
styled lines.
-/

namespace Openheim.Tui

/-- What the chat shows. -/
inductive ChatItem where
  | userMessage (text : String)
  | assistantMessage (text : String)
  | thinking (text : String)
  | toolCall (name args : String)
  | toolResult (result : String) (isError : Bool)
  | systemInfo (text : String)
  | err (text : String)
  deriving DecidableEq, Repr

inductive Color where
  | white
  | darkGray
  | blue
  | cyan
  | lightMagenta
  | green
  | yellow
  | red
  | lightRed
  deriving DecidableEq, Repr

def themeColors : List String :=
  ["white", "gray", "blue", "cyan", "magenta", "green", "yellow", "red", "pink"]

def themeColor (name : String) : Color :=
  match name with
  | "white" => .white
  | "gray" => .darkGray
  | "blue" => .blue
  | "cyan" => .cyan
  | "magenta" => .lightMagenta
  | "green" => .green
  | "yellow" => .yellow
  | "red" => .red
  | "pink" => .lightRed
  | _ => .white

/-- A text in one style. -/
structure Span where
  text : String
  color : Option Color
  bold : Bool
  deriving DecidableEq, Repr

abbrev Line := List Span

def Span.raw (text : String) : Span := ⟨text, none, false⟩

def Span.styled (text : String) (color : Color) : Span := ⟨text, some color, false⟩

/-- The number of characters of a line. -/
def Line.width (line : Line) : Nat := (line.map fun span => span.text.length).sum

/-- The lines of one paragraph, given the line that is being filled and its length. -/
def wrapFrom (width : Nat) (current : List Char) (currentLen : Nat) :
    List (List Char) → List (List Char)
  | [] => if current.isEmpty then [] else [current]
  | word :: rest =>
      if current.isEmpty then wrapFrom width word word.length rest
      else if currentLen + 1 + word.length ≤ width then
        wrapFrom width (current ++ ' ' :: word) (currentLen + 1 + word.length) rest
      else current :: wrapFrom width word word.length rest

def wordWrap (text : List Char) (width : Nat) : List (List Char) :=
  if width = 0 then Lines.lines text
  else (text.splitOn '\n').flatMap fun para =>
    if Lines.isBlank para then [[]] else wrapFrom width [] 0 (Lines.splitWhitespace para)

/-- The pieces of a positive width, given the piece that is being filled. -/
def chunksFrom (width : Nat) (current : List Char) : List Char → List (List Char)
  | [] => if current.isEmpty then [] else [current]
  | char :: rest =>
      if current.length < width then chunksFrom width (current ++ [char]) rest
      else current :: chunksFrom width [char] rest

/-- A line that is still too long is cut. -/
def chunkLine (width : Nat) (line : List Char) : List (List Char) :=
  if line.length ≤ width then [line] else chunksFrom (max width 1) [] line

/-- The widest text that a bubble may hold. -/
def contentMax (width : Nat) : Nat := max (min 50 (width - 8)) 1

/-- The text of a user in a bubble of its own. -/
def userBubble (text : String) (width : Nat) (theme : Color) : List Line :=
  let wrapped := (wordWrap text.toList (contentMax width)).flatMap (chunkLine (contentMax width))
  let contentW := max ((wrapped.map List.length).max?.getD 0) 1
  let rule := String.ofList (List.replicate (contentW + 2) '─')
  [[.raw "  ", .styled ("╭" ++ rule ++ "╮") theme]] ++
    wrapped.map (fun line =>
      [.raw "  ", .styled "│ " theme, .styled (String.ofList line) theme,
        .styled (String.ofList (List.replicate (contentW - line.length) ' ')) theme,
          .styled " │" theme]) ++
    [[.raw "  ", .styled ("╰" ++ rule ++ "╯") theme], []]

/-- The color of a call says how it ended, if the next item is its result. -/
def callColor (theme : Color) : Option ChatItem → Color
  | some (.toolResult _ isError) => if isError then .red else .green
  | _ => theme

/-- The lines of one item, given the item after it. -/
def itemLines (width : Nat) (theme : Color) (next : Option ChatItem) : ChatItem → List Line
  | .userMessage text => userBubble text width theme
  | .assistantMessage text =>
      ((wordWrap text.toList (width - 2)).flatMap (chunkLine (width - 2))).map
        (fun line => [.styled ("  " ++ String.ofList line) .white]) ++ [[]]
  | .thinking text =>
      (wordWrap text.toList (width - 2 - 4)).mapIdx
        (fun i line => [.styled (if i = 0 then "  ≫ " else "     ") .darkGray,
          .styled (String.ofList line) .darkGray]) ++
        [[]]
  | .toolCall name args =>
      let previewW := width - 2 - (4 + name.length + 1)
      let preview := String.ofList (args.toList.take previewW)
      let color := callColor theme next
      [[.raw "  ", .styled "⚙ " color, ⟨name, some color, true⟩, .raw " ",
        .styled (if previewW < args.length then preview ++ "…" else preview) .darkGray]]
  | .toolResult result _ =>
      let flat := (result.toList.take 200).map fun char => if char = '\n' then ' ' else char
      [[.raw "    ", .styled "→ " .darkGray, .styled (String.ofList (Lines.trim flat)) .darkGray]]
  | .systemInfo text =>
      (Lines.lines text.toList).map (fun line => [.styled ("  " ++ String.ofList line) theme]) ++
        [[]]
  | .err text => [[.styled ("  error: " ++ text) .red], []]

def buildLines (width : Nat) (theme : Color) : List ChatItem → List Line
  | [] => []
  | item :: rest => itemLines width theme rest.head? item ++ buildLines width theme rest

end Openheim.Tui
