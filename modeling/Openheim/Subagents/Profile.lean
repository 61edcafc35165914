import Openheim.Config.Theme
import Openheim.Library.Fences
import Openheim.Tools.Executor

/-
This file follows `src/subagents/mod.rs`: the text of a profile, with an optional block of TOML in
front.
-/

namespace Openheim.Subagents
open Openheim.Config (afterStart trimStart)
open Openheim.Tools (AgentProfile)

/-- What the block in front of a profile says. -/
structure AgentProfileMeta where
  description : String
  model : Option String
  provider : Option String
  tools : Option (List String)
  maxIterations : Option Nat
  deriving DecidableEq, Repr

namespace AgentProfileMeta

/-- No metadata. -/
def empty : AgentProfileMeta := ⟨"", none, none, none, none⟩

/-- The TOML library reads the metadata from a block, or says why it cannot. -/
abbrev Reader := String → Except String AgentProfileMeta

end AgentProfileMeta

/-- What stands at the start of the first and the last line of the block. -/
def delimiter : List Char := ['+', '+', '+']

/-- Splits the block from the body. -/
def splitFrontmatter (readMeta : AgentProfileMeta.Reader) (content : String) :
    Except Error (AgentProfileMeta × String) :=
  match afterStart delimiter (trimStart content.toList) with
  | none => .ok (.empty, content)
  | some rest =>
      let rest := (afterStart ['\n'] rest).getD rest
      match Fences.cut ('\n' :: delimiter) rest with
      | none => .error (.parseError "unterminated '+++' frontmatter block")
      | some (frontmatter, closing) =>
          -- the closing part begins with the newline before the delimiter
          let body :=
            match Fences.cut ['\n'] (closing.drop 1) with
            | some (_, after) => after.drop 1
            | none => []
          match readMeta (String.ofList frontmatter) with
          | .ok metadata => .ok (metadata, String.ofList body)
          | .error reason => .error (.parseError ("invalid frontmatter: " ++ reason))

/-- A profile of this name. -/
def parseProfile (readMeta : AgentProfileMeta.Reader) (name content : String) :
    Except Error AgentProfile :=
  match splitFrontmatter readMeta content with
  | .error error => .error error
  | .ok (metadata, body) =>
      .ok {
        name
        description := metadata.description
        model := metadata.model
        provider := metadata.provider
        tools := metadata.tools
        maxIterations := metadata.maxIterations
        systemPrompt := String.ofList (Lines.trim body.toList) }

end Openheim.Subagents
