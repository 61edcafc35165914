import Openheim.Core.Context

/-
This file shows which cut of a history `trim` chooses and what the request that is left looks like.
-/

namespace Openheim

/-- The history has a user message at the index. -/
def UserAt (history : List Message) (index : Nat) : Prop :=
  ∃ message, history[index]? = some message ∧ message.role = .user

/-- A request that begins at the index is within the limit, note included. -/
def FitsFrom (history : List Message) (fixedBytes maxBytes index : Nat) : Prop :=
  fixedBytes + ((history.drop index).map messageBytes).sum +
    (omittedNote index).utf8ByteSize ≤ maxBytes

/-- The cut is the first later user message from which the rest fits, or
the latest one when none fits. -/
structure OptimalCut (history : List Message) (fixedBytes maxBytes cut : Nat) : Prop where
  positive : 0 < cut
  user : UserAt history cut
  notAfterLatest : cut ≤ latestTurnStart history
  fits : FitsFrom history fixedBytes maxBytes cut ∨ cut = latestTurnStart history
  least : ∀ index, 0 < index → UserAt history index → FitsFrom history fixedBytes maxBytes index →
    cut ≤ index

/-- The scan of `cutFrom` with a subtraction that fails when it would go below zero. -/
def checkedCutFrom (maxBytes latest : Nat) : Nat → Nat → List Message → Option Nat
  | _, _, [] => some latest
  | index, remaining, message :: rest =>
      if 0 < index ∧ message.role = .user ∧
        remaining + (omittedNote index).utf8ByteSize ≤ maxBytes then some index
      else if messageBytes message ≤ remaining then
        checkedCutFrom maxBytes latest (index + 1) (remaining - messageBytes message) rest
      else none

/-- The computation of `trim` with subtractions that fail when they would go below zero. -/
def checkedTrim (history : List Message) (fixedBytes maxBytes : Nat) : Option (Option Fitted) :=
  let total := fixedBytes + (history.map messageBytes).sum
  let latest := latestTurnStart history
  if total ≤ maxBytes ∨ latest = 0 then some none
  else
    (checkedCutFrom maxBytes latest 0 total (history.take (latest + 1))).map fun cut =>
      some ⟨withNote cut (history.drop cut), cut, cut = latest⟩

section Scan
variable {history messages : List Message} {maxBytes latest index : Nat}

/-- No user message comes after the latest one. -/
theorem le_latestTurnStart (user : UserAt history index) : index ≤ latestTurnStart history := by
  induction history generalizing index with
  | nil =>
      obtain ⟨_, found, _⟩ := user
      simp at found
  | cons first rest ih =>
      cases index with
      | zero => exact Nat.zero_le _
      | succ index =>
          obtain ⟨message, found, role⟩ := user
          rw [List.getElem?_cons_succ] at found
          have later : (rest.any fun message => message.role = .user) = true :=
            List.any_eq_true.mpr ⟨message, List.mem_of_getElem? found, by simpa using role⟩
          rw [latestTurnStart, if_pos later]
          exact Nat.succ_le_succ (ih ⟨message, found, role⟩)

/-- The scan stops at the first user message from which the rest fits. -/
theorem cutFrom_spec (fixedBytes maxBytes latest index remaining : Nat)
    (messages tail : List Message)
    (rest : remaining = fixedBytes + ((messages ++ tail).map messageBytes).sum) :
    (∃ offset < messages.length, cutFrom maxBytes latest index remaining messages = index + offset ∧
      0 < index + offset ∧ UserAt messages offset ∧
      fixedBytes + (((messages ++ tail).drop offset).map messageBytes).sum +
        (omittedNote (index + offset)).utf8ByteSize ≤ maxBytes ∧
      ∀ before < offset, 0 < index + before → UserAt messages before →
        maxBytes < fixedBytes + (((messages ++ tail).drop before).map messageBytes).sum +
          (omittedNote (index + before)).utf8ByteSize) ∨
    (cutFrom maxBytes latest index remaining messages = latest ∧
      ∀ before < messages.length, 0 < index + before → UserAt messages before →
        maxBytes < fixedBytes + (((messages ++ tail).drop before).map messageBytes).sum +
          (omittedNote (index + before)).utf8ByteSize) := by
  induction messages generalizing index remaining with
  | nil => exact .inr ⟨rfl, by simp⟩
  | cons first messages ih =>
      rw [cutFrom]
      split
      · next fits =>
        obtain ⟨positive, role, small⟩ := fits
        refine .inl ⟨0, by simp, rfl, positive, ⟨first, rfl, role⟩, ?_, by simp⟩
        rw [List.drop_zero, ← rest]
        exact small
      · next large =>
        have next_rest : remaining - messageBytes first =
            fixedBytes + ((messages ++ tail).map messageBytes).sum := by
          rw [rest, List.cons_append, List.map_cons, List.sum_cons]
          omega
        have here : 0 < index + 0 → UserAt (first :: messages) 0 →
            maxBytes < fixedBytes + (((first :: messages ++ tail).drop 0).map messageBytes).sum +
              (omittedNote (index + 0)).utf8ByteSize := by
          rintro positive ⟨message, found, role⟩
          cases found
          rw [List.drop_zero, ← rest]
          exact Nat.lt_of_not_le fun small => large ⟨positive, role, small⟩
        rcases ih (index + 1) _ next_rest with
          ⟨offset, inside, cut, positive, user, small, earlier⟩ |
          ⟨cut, earlier⟩
        · refine .inl ⟨offset + 1, Nat.succ_lt_succ inside, by rw [cut]; omega, by omega,
            user, ?_, ?_⟩
          · rwa [show index + (offset + 1) = index + 1 + offset by omega]
          · intro before bound positive user
            cases before with
            | zero => exact here positive user
            | succ before =>
                rw [show index + (before + 1) = index + 1 + before by omega] at positive ⊢
                exact earlier before (by omega) positive user
        · refine .inr ⟨cut, fun before bound positive user => ?_⟩
          cases before with
          | zero => exact here positive user
          | succ before =>
              rw [show index + (before + 1) = index + 1 + before by omega] at positive ⊢
              exact earlier before (Nat.lt_of_succ_lt_succ bound) positive user

/-- The total covers every message that the scan passes. -/
theorem checkedCutFrom_eq (remaining : Nat) (covers : (messages.map messageBytes).sum ≤ remaining) :
    checkedCutFrom maxBytes latest index remaining messages =
      some (cutFrom maxBytes latest index remaining messages) := by
  induction messages generalizing index remaining with
  | nil => rfl
  | cons first messages ih =>
      rw [List.map_cons, List.sum_cons] at covers
      rw [checkedCutFrom, cutFrom]
      split
      · rfl
      · rw [if_pos (by omega)]
        exact ih _ (by omega)

end Scan

section Trim
variable {history : List Message} {fixedBytes maxBytes : Nat}

theorem UserAt.of_take {bound index : Nat} (user : UserAt (history.take bound) index) :
    UserAt history index := by
  obtain ⟨message, found, role⟩ := user
  rw [List.getElem?_take] at found
  split at found
  · exact ⟨message, found, role⟩
  · cases found

theorem UserAt.take {bound index : Nat} (user : UserAt history index) (inside : index < bound) :
    UserAt (history.take bound) index := by
  obtain ⟨message, found, role⟩ := user
  exact ⟨message, by rw [List.getElem?_take_of_lt inside, found], role⟩

/-- There is no later user message exactly when the latest turn starts the history. -/
theorem latestTurnStart_eq_zero : latestTurnStart history = 0 ↔ ∀ index, 0 < index →
    ¬ UserAt history index := by
  constructor
  · intro first index positive user
    have below := le_latestTurnStart user
    omega
  · intro none_later
    by_contra later
    exact none_later _ (Nat.pos_of_ne_zero later)
      (latestTurnStart_user (latestTurnStart_ne_zero later))

/-- The scan up to the latest turn finds the optimal cut. -/
theorem cutFrom_optimal (later : latestTurnStart history ≠ 0) :
    OptimalCut history fixedBytes maxBytes (cutFrom maxBytes (latestTurnStart history) 0
      (fixedBytes + (history.map messageBytes).sum)
        (history.take (latestTurnStart history + 1))) := by
  have latest : UserAt history (latestTurnStart history) :=
    latestTurnStart_user (latestTurnStart_ne_zero later)
  have inside : latestTurnStart history < history.length := by
    obtain ⟨_, found, _⟩ := latest
    exact (List.getElem?_eq_some_iff.mp found).1
  have scan := cutFrom_spec fixedBytes maxBytes (latestTurnStart history) 0 _
    (history.take (latestTurnStart history + 1)) (history.drop (latestTurnStart history + 1)) rfl
  simp only [List.take_append_drop, Nat.zero_add, List.length_take] at scan
  rcases scan with ⟨offset, bound, cut, positive, user, small, earlier⟩ | ⟨cut, earlier⟩
  · rw [cut]
    refine ⟨positive, user.of_take, by omega, .inl small, fun index later_index found fits => ?_⟩
    by_contra before
    have large := earlier index (by omega) later_index (found.take (by omega))
    exact absurd large (Nat.not_lt_of_le fits)
  · rw [cut]
    refine ⟨Nat.pos_of_ne_zero later, latest, Nat.le_refl _, .inr rfl,
      fun index later_index found fits => ?_⟩
    have below := le_latestTurnStart found
    have large := earlier index (by omega) later_index (found.take (by omega))
    exact absurd large (Nat.not_lt_of_le fits)

/-- The note adds its own bytes to the first kept message. -/
theorem withNote_bytes {dropped : Nat} {first : Message} {rest : List Message} :
    ((withNote dropped (first :: rest)).map messageBytes).sum =
      ((first :: rest).map messageBytes).sum + (omittedNote dropped).utf8ByteSize := by
  simp only [withNote, List.map_cons, List.sum_cons, messageBytes, blockBytes]
  omega

/-- A history is left whole when it fits or when it has no later user message. Otherwise the cut is
the optimal one, the kept messages gain the note only, and what is left fits unless the cut is at
the latest turn. No subtraction on the way goes below zero. -/
theorem trim_optimal (history : List Message) (fixedBytes maxBytes : Nat) :
    (trim history fixedBytes maxBytes = none ↔
      fixedBytes + (history.map messageBytes).sum ≤ maxBytes ∨ ∀ index, 0 < index →
        ¬ UserAt history index) ∧
    (∀ fitted, trim history fixedBytes maxBytes = some fitted →
      OptimalCut history fixedBytes maxBytes fitted.dropped ∧
      (∃ first rest, history.drop fitted.dropped = first :: rest ∧ fitted.messages =
        { first with content := .text (omittedNote fitted.dropped) :: first.content } :: rest) ∧
      (fitted.exhausted = true ↔ fitted.dropped = latestTurnStart history) ∧
      (fixedBytes + (fitted.messages.map messageBytes).sum ≤ maxBytes ∨
        fitted.dropped = latestTurnStart history)) ∧
    checkedTrim history fixedBytes maxBytes = some (trim history fixedBytes maxBytes) := by
  rw [← latestTurnStart_eq_zero]
  refine ⟨?_, fun fitted trimmed => ?_, ?_⟩
  · rw [trim]
    split
    · next whole => simp [whole]
    · next cut => simp [cut]
  · simp only [trim, Option.ite_none_left_eq_some, not_or, Option.some.injEq] at trimmed
    obtain ⟨⟨_, later⟩, rfl⟩ := trimmed
    have optimal : OptimalCut history fixedBytes maxBytes _ := cutFrom_optimal later
    generalize cutFrom _ _ _ _ _ = cut at optimal ⊢
    obtain ⟨message, found, _⟩ := optimal.user
    obtain ⟨bound, rfl⟩ := List.getElem?_eq_some_iff.mp found
    have split := List.drop_eq_getElem_cons bound
    refine ⟨optimal, ⟨history[cut], history.drop (cut + 1), split, by rw [split, withNote]⟩,
      by simp, ?_⟩
    rcases optimal.fits with fits | latest
    · left
      dsimp only
      rw [FitsFrom, split] at fits
      rw [split, withNote_bytes]
      omega
    · exact .inr latest
  · rw [checkedTrim, trim]
    split
    · rfl
    · have covers : ((history.take (latestTurnStart history + 1)).map messageBytes).sum ≤
          fixedBytes + (history.map messageBytes).sum := by
        have split := congrArg (fun messages => (messages.map messageBytes).sum)
          (List.take_append_drop (latestTurnStart history + 1) history)
        simp only [List.map_append, List.sum_append] at split
        omega
      rw [checkedCutFrom_eq _ covers]
      rfl

end Trim

end Openheim
