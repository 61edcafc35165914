import Openheim.Core.Json
import Openheim.Core.Models
import Openheim.Library.Lines

/-
This file follows `src/memory/prompt.rs`.
-/

namespace Openheim

/-- What goes into the system message: an optional identity and named skills. -/
structure PromptBuilder where
  systemIdentity : Option String
  skills : List (String × String)
  deriving DecidableEq, Repr

namespace PromptBuilder

/-- The identity counts only when it is not blank. -/
def identity (builder : PromptBuilder) : Option String :=
  builder.systemIdentity.filter fun text => !Lines.isBlank text.toList

def sections (builder : PromptBuilder) : List String :=
  ["You are a general purpose multiprovider LLM agent."] ++
    builder.identity.toList.map ("The user has given you the following identity:\n\n" ++ ·) ++
    if builder.skills.isEmpty then []
    else ["These are the skills you have mastered:\n\n" ++
      "\n\n---\n\n".intercalate (builder.skills.map fun skill =>
        "### " ++ skill.1 ++ "\n\n" ++ skill.2)]

/-- The system message, when there is anything to say, and then the history. -/
def build (builder : PromptBuilder) (history : List Message) : List Message :=
  if builder.identity.isNone ∧ builder.skills.isEmpty then history
  else ⟨.system, [.text ("\n\n---\n\n".intercalate builder.sections)]⟩ :: history

end PromptBuilder

end Openheim
