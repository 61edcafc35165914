import Mathlib.Algebra.GroupWithZero.Nat
import Openheim.Core.Models

/-
This file follows `src/core/context.rs`, which leaves the oldest turns out of a request that does
not fit.
-/

namespace Openheim

/-- Share of the context window that a request may fill. -/
def fillRatio : Float := 0.9

/-- Bytes per token until a call of the turn reports its usage. -/
def defaultBytesPerToken : Float := 4.0

/-- After an overflow the next attempt aims this far below the rejected size. -/
def overflowShrink : Float := 0.75

/-- Retries of one call after the provider rejected it as too long. -/
def maxOverflowRetries : Nat := 2

def messageOverheadBytes : Nat := 16

def imageBytes : Nat := 6000

/-- The note that opens the first kept turn. -/
def omittedNote (dropped : Nat) : String :=
  "[" ++ toString dropped ++ " earlier messages omitted to fit the context window]"

def blockBytes : ContentBlock → Nat
  | .text text => text.utf8ByteSize
  | .thinking thinking signature => thinking.utf8ByteSize + signature.elim 0 String.utf8ByteSize
  | .redactedThinking data => data.utf8ByteSize
  | .image _ _ => imageBytes
  | .toolUse id name arguments signature =>
      id.utf8ByteSize + name.utf8ByteSize + arguments.utf8ByteSize + signature.elim 0
        String.utf8ByteSize
  | .toolResult toolCallId toolName content _ =>
      toolCallId.utf8ByteSize + toolName.utf8ByteSize + content.utf8ByteSize

/-- The rough size of a message on the wire. -/
def messageBytes (message : Message) : Nat :=
  (message.content.map blockBytes).sum + messageOverheadBytes

/-- The index of the latest user message, or 0 if there is none. -/
def latestTurnStart : List Message → Nat
  | [] => 0
  | _ :: rest => if rest.any fun message => message.role = .user then
      latestTurnStart rest + 1 else 0

/-- The history of a request after fitting. -/
structure Fitted where
  messages : List Message
  dropped : Nat
  exhausted : Bool

/-- The first user message after the start from which the rest fits, or the latest turn. -/
def cutFrom (maxBytes latest : Nat) : Nat → Nat → List Message → Nat
  | _, _, [] => latest
  | index, remaining, message :: rest =>
      if 0 < index ∧ message.role = .user ∧
        remaining + (omittedNote index).utf8ByteSize ≤ maxBytes then index
      else cutFrom maxBytes latest (index + 1) (remaining - messageBytes message) rest

/-- The first kept message opens with the note. -/
def withNote (dropped : Nat) : List Message → List Message
  | [] => []
  | first :: rest => { first with content := .text (omittedNote dropped) :: first.content } :: rest

/-- The history is cut before a user message to fit, and nothing is
returned when it is left whole. -/
def trim (history : List Message) (fixedBytes maxBytes : Nat) : Option Fitted :=
  let total := fixedBytes + (history.map messageBytes).sum
  let latest := latestTurnStart history
  if total ≤ maxBytes ∨ latest = 0 then none
  else
    let cut := cutFrom maxBytes latest 0 total (history.take (latest + 1))
    some ⟨withNote cut (history.drop cut), cut, cut = latest⟩

theorem latestTurnStart_user {messages : List Message}
    (some_user : ∃ message ∈ messages, message.role = .user) :
    ∃ message, messages[latestTurnStart messages]? = some message ∧ message.role = .user := by
  induction messages with
  | nil => simp at some_user
  | cons first rest ih =>
      rw [latestTurnStart]
      split
      · next later =>
        rw [List.getElem?_cons_succ]
        exact ih (by simpa using later)
      · next last =>
        obtain ⟨message, member, role⟩ := some_user
        rcases List.mem_cons.mp member with rfl | later
        · exact ⟨message, rfl, role⟩
        · exact absurd (List.any_eq_true.mpr ⟨message, later, by simpa using role⟩) last

theorem latestTurnStart_ne_zero {messages : List Message} (found : latestTurnStart messages ≠ 0) :
    ∃ message ∈ messages, message.role = .user := by
  cases messages with
  | nil => exact absurd rfl found
  | cons first rest =>
      rw [latestTurnStart] at found
      split at found
      · next later =>
        obtain ⟨message, member, role⟩ := List.any_eq_true.mp later
        exact ⟨message, List.mem_cons_of_mem _ member, by simpa using role⟩
      · exact absurd rfl found

/-- The cut is at the latest turn, or at a user message of the list. -/
theorem cutFrom_user (maxBytes latest index remaining : Nat) (messages : List Message) :
    cutFrom maxBytes latest index remaining messages = latest ∨
      ∃ offset message, cutFrom maxBytes latest index remaining messages = index + offset ∧
        messages[offset]? = some message ∧ message.role = .user := by
  induction messages generalizing index remaining with
  | nil => exact .inl rfl
  | cons first rest ih =>
      rw [cutFrom]
      split
      · next fits => exact .inr ⟨0, first, rfl, rfl, fits.2.1⟩
      · rcases ih (index + 1) (remaining - messageBytes first) with
          latest_cut | ⟨offset, message, cut, found, role⟩
        · exact .inl latest_cut
        · exact .inr ⟨offset + 1, message, by omega, found, role⟩

/-- What is kept of a history begins with a user message. -/
theorem trim_user {history : List Message} {fixedBytes maxBytes : Nat} {fitted : Fitted}
    (trimmed : trim history fixedBytes maxBytes = some fitted) :
    ∃ cut first rest, history.drop cut = first :: rest ∧ first.role = .user ∧
      fitted.messages = withNote cut (first :: rest) := by
  simp only [trim, Option.ite_none_left_eq_some, not_or, Option.some.injEq] at trimmed
  obtain ⟨⟨_, later⟩, rfl⟩ := trimmed
  generalize cutAt : cutFrom _ _ _ _ _ = cut
  have starts : ∃ message, history[cut]? = some message ∧ message.role = .user := by
    rcases cutFrom_user maxBytes (latestTurnStart history) 0 _
        (history.take (latestTurnStart history + 1)) with
      latest | ⟨offset, message, at_offset, found, role⟩
    · rw [← cutAt, latest]
      exact latestTurnStart_user (latestTurnStart_ne_zero later)
    · rw [Nat.zero_add] at at_offset
      rw [← cutAt, at_offset]
      rw [List.getElem?_take] at found
      split at found
      · exact ⟨message, found, role⟩
      · cases found
  obtain ⟨first, found, role⟩ := starts
  obtain ⟨bound, rfl⟩ := List.getElem?_eq_some_iff.mp found
  have split := List.drop_eq_getElem_cons bound
  exact ⟨cut, history[cut], history.drop (cut + 1), split, role, by rw [split]⟩

/-- What keeps the requests of one turn inside the context window. -/
structure ContextFitter where
  window : Option Nat
  fixedBytes : Nat
  bytesPerToken : Float
  overflowLimit : Option Nat

namespace ContextFitter

/-- A fitter for requests that carry a system prompt and tools besides the history. -/
def new (window : Option Nat) (system : List Message) (toolsBytes : Nat) : ContextFitter :=
  ⟨window, (system.map messageBytes).sum + toolsBytes, defaultBytesPerToken, none⟩

def maxBytes (fitter : ContextFitter) : Option Nat :=
  let fromWindow := fitter.window.map fun tokens =>
    (Float.ofNat tokens * fillRatio * fitter.bytesPerToken).toUInt64.toNat
  match fromWindow, fitter.overflowLimit with
  | some a, some b => some (min a b)
  | a, b => a.or b

/-- The history as it should be sent. -/
def fit (fitter : ContextFitter) (history : List Message) : Fitted :=
  (fitter.maxBytes.bind fun limit => trim history fitter.fixedBytes limit).getD
    ⟨history, 0, latestTurnStart history = 0⟩

def requestBytes (fitter : ContextFitter) (request : List Message) : Nat :=
  fitter.fixedBytes + (request.map messageBytes).sum

/-- The history is sent as it is, or from one of its user messages on. -/
theorem fit_messages (fitter : ContextFitter) (history : List Message) :
    (fitter.fit history).messages = history ∨
      ∃ cut first rest, history.drop cut = first :: rest ∧ first.role = .user ∧
        (fitter.fit history).messages = withNote cut (first :: rest) := by
  rw [fit]
  cases trimmed : fitter.maxBytes.bind fun limit => trim history fitter.fixedBytes limit with
  | none => exact .inl rfl
  | some fitted =>
      obtain ⟨limit, _, kept⟩ := Option.bind_eq_some_iff.mp trimmed
      exact .inr (trim_user kept)

/-- Calibrates the ratio from the usage that a call reported. -/
def recordUsage (fitter : ContextFitter) (sentBytes : Nat) (usage : Usage) : ContextFitter :=
  let promptTokens := usage.inputTokens + usage.cacheCreationTokens + usage.cacheReadTokens
  if 0 < promptTokens then
    let ratio := Float.ofNat sentBytes / Float.ofNat promptTokens
    { fitter with bytesPerToken := if ratio < 1.0 then 1.0 else if 8.0 < ratio then 8.0 else ratio }
  else fitter

/-- Lowers the limit after an overflow, unless only the latest turn was left. -/
def recordOverflow (fitter : ContextFitter) (sent : Fitted) (sentBytes : Nat) :
    Option ContextFitter :=
  if sent.exhausted then none
  else
    let limit := (Float.ofNat sentBytes * overflowShrink).toUInt64.toNat
    some { fitter with overflowLimit := some (fitter.overflowLimit.elim limit (min · limit)) }

end ContextFitter

end Openheim
