import Mathlib.Data.List.Basic
import Openheim.Core.Error

/-
This file follows `read_capped_body` of `src/tools/web_fetch.rs` and `read_capped` of
`src/tools/execute_command.rs`, and shows that they return the beginning of what they read and which
contents they report as cut.
-/

namespace Openheim.Tools

/-- The buffer takes what still fits of a chunk. -/
def keep (cap : Nat) (buf chunk : List UInt8) : List UInt8 :=
  buf ++ chunk.take (min (cap - buf.length) chunk.length)

/-- Reads a body up to the cap and says if it was cut. The stream ends or fails after the chunks. -/
def readCappedBody (cap : Nat) (buf : List UInt8) :
    List (Except String (List UInt8)) → Except Error (List UInt8 × Bool)
  | [] => .ok (buf, false)
  | .error reason :: _ => .error (.toolExecutionError ("Failed reading response body: " ++ reason))
  | .ok chunk :: rest =>
      if cap ≤ (keep cap buf chunk).length then .ok (keep cap buf chunk, true)
      else readCappedBody cap (keep cap buf chunk) rest

/-- The loop on a pipe. A read of nothing is the end of the pipe, and a
failed read ends the content. -/
def readPipe (cap : Nat) (buf : List UInt8) : List (Except String (List UInt8)) → List UInt8 × Bool
  | [] => (buf, false)
  | .error _ :: _ => (buf, false)
  | .ok chunk :: rest =>
      if chunk = [] then (buf, false)
      else if (keep cap buf chunk).length = cap then (keep cap buf chunk, true)
      else readPipe cap (keep cap buf chunk) rest

/-- Reads a pipe up to the cap and says if the cap stopped it. -/
def readCapped (cap : Nat) (pipe : Option (List (Except String (List UInt8)))) (buf : List UInt8) :
    List UInt8 × Bool :=
  match pipe with
  | none => (buf, false)
  | some reads => readPipe cap buf reads

/-- The content of a pipe: what its reads yield until one yields nothing or fails. -/
def pipeContent : List (Except String (List UInt8)) → List UInt8
  | [] => []
  | .error _ :: _ => []
  | .ok chunk :: rest => if chunk = [] then [] else chunk ++ pipeContent rest

/-- The reader returned the beginning of the content and reports a cut if the
content is longer than the cap. -/
structure Exact (cap : Nat) (content : List UInt8) (result : List UInt8 × Bool) : Prop where
  bytes : result.1 = content.take cap
  truncated : result.2 = true ↔ cap < content.length

section Keep
variable {cap : Nat} {buf : List UInt8} (within : buf.length ≤ cap) (chunk : List UInt8)
include within

theorem keep_eq : keep cap buf chunk = (buf ++ chunk).take cap := by
  rw [keep, List.take_append, List.take_of_length_le within, ← List.take_take, List.take_length]

theorem keep_full (rest : List UInt8) (full : cap ≤ (keep cap buf chunk).length) :
    keep cap buf chunk = (buf ++ (chunk ++ rest)).take cap ∧
      cap ≤ (buf ++ (chunk ++ rest)).length := by
  rw [keep_eq within] at full ⊢
  have long : cap ≤ (buf ++ chunk).length := Nat.le_trans full (List.length_take_le' _ _)
  rw [← List.append_assoc, List.take_append_of_le_length long,
    @List.length_append _ (buf ++ chunk) rest]
  exact ⟨rfl, Nat.le_add_right_of_le long⟩

/-- A chunk that leaves room is kept as a whole, and only more content can reach the cap. -/
theorem keep_open (more : (keep cap buf chunk).length < cap) :
    keep cap buf chunk = buf ++ chunk ∧ (buf ++ chunk).length ≤ cap ∧
      ∀ rest, cap ≤ (buf ++ (chunk ++ rest)).length → rest ≠ [] := by
  rw [keep_eq within, List.length_take] at more
  have short : (buf ++ chunk).length < cap := by omega
  refine ⟨by rw [keep_eq within, List.take_of_length_le (Nat.le_of_lt short)],
    Nat.le_of_lt short, ?_⟩
  rintro rest long rfl
  rw [List.append_nil] at long
  exact Nat.not_le_of_lt short long

end Keep

/-- A body that reaches the cap is reported as cut, if it has a chunk. -/
theorem readCappedBody_eq {cap : Nat} {buf : List UInt8} (within : buf.length ≤ cap)
    (chunks : List (List UInt8)) :
    readCappedBody cap buf (chunks.map .ok) =
      .ok ((buf ++ chunks.flatten).take cap,
          decide (cap ≤ (buf ++ chunks.flatten).length ∧ chunks ≠ [])) := by
  induction chunks generalizing buf with
  | nil => simp [readCappedBody, List.take_of_length_le within]
  | cons chunk rest ih =>
      rw [List.map_cons, readCappedBody, List.flatten_cons]
      split
      · next full =>
        obtain ⟨bytes, long⟩ := keep_full within chunk rest.flatten full
        rw [← bytes, decide_eq_true ⟨long, List.cons_ne_nil chunk rest⟩]
      · next below =>
        obtain ⟨all, short, more⟩ := keep_open within chunk (Nat.lt_of_not_le below)
        have others : cap ≤ (buf ++ (chunk ++ rest.flatten)).length → rest ≠ [] := by
          rintro long rfl
          exact more _ long rfl
        rw [all, ih short, List.append_assoc, decide_eq_decide.mpr]
        exact ⟨fun cut => ⟨cut.1, List.cons_ne_nil chunk rest⟩, fun cut => ⟨cut.1, others cut.1⟩⟩

/-- A pipe that reaches the cap is reported as cut, if it has any content. -/
theorem readPipe_eq {cap : Nat} {buf : List UInt8} (within : buf.length ≤ cap)
    (reads : List (Except String (List UInt8))) :
    readPipe cap buf reads = ((buf ++ pipeContent reads).take cap,
      decide (cap ≤ (buf ++ pipeContent reads).length ∧ pipeContent reads ≠ [])) := by
  induction reads generalizing buf with
  | nil => simp [readPipe, pipeContent, List.take_of_length_le within]
  | cons read rest ih =>
      cases read with
      | error reason => simp [readPipe, pipeContent, List.take_of_length_le within]
      | ok chunk =>
          rw [readPipe, pipeContent]
          by_cases ended : chunk = []
          · simp [ended, List.take_of_length_le within]
          rw [if_neg ended, if_neg ended]
          have present : chunk ++ pipeContent rest ≠ [] := List.append_ne_nil_of_left_ne_nil ended _
          split
          · next full =>
            obtain ⟨taken, long⟩ :=
              keep_full within chunk (pipeContent rest) (Nat.le_of_eq full.symm)
            rw [← taken, decide_eq_true ⟨long, present⟩]
          · next below =>
            have bound : (keep cap buf chunk).length ≤ cap :=
              keep_eq within chunk ▸ List.length_take_le _ _
            obtain ⟨all, short, more⟩ := keep_open within chunk (Nat.lt_of_le_of_ne bound below)
            rw [all, ih short, List.append_assoc, decide_eq_decide.mpr]
            exact ⟨fun cut => ⟨cut.1, present⟩, fun cut => ⟨cut.1, more _ cut.1⟩⟩

/-- A report of every content that reaches the cap is right if the content does not end there. -/
theorem exact_iff {cap : Nat} {content : List UInt8} {started : Prop} [Decidable started]
    (longer : content ≠ [] → started) :
    Exact cap content (content.take cap, decide (cap ≤ content.length ∧ started)) ↔
      content.length ≠ cap ∨ ¬ started := by
  constructor
  · rintro ⟨-, truncated⟩
    by_contra both
    rw [not_or, not_not, not_not] at both
    exact absurd (truncated.mp (decide_eq_true ⟨Nat.le_of_eq both.1.symm, both.2⟩)) (by omega)
  · intro fine
    refine ⟨rfl, decide_eq_true_iff.trans ⟨fun cut => ?_, fun long => ?_⟩⟩
    · exact Nat.lt_of_le_of_ne cut.1 (fine.resolve_right (not_not.mpr cut.2)).symm
    · exact ⟨Nat.le_of_lt long, longer (List.ne_nil_of_length_pos (Nat.zero_lt_of_lt long))⟩

/-- For every split the readers return the beginning of the content, and are exact but for contents
that end at the cap. -/
theorem readers_exact_iff (cap : Nat) :
    (∀ chunks, ∃ result, readCappedBody cap [] (chunks.map .ok) = .ok result ∧
      result.1 = chunks.flatten.take cap ∧
      (Exact cap chunks.flatten result ↔ chunks.flatten.length ≠ cap ∨ chunks = [])) ∧
    ∀ reads, (readCapped cap (some reads) []).1 = (pipeContent reads).take cap ∧
      (Exact cap (pipeContent reads) (readCapped cap (some reads) []) ↔
        (pipeContent reads).length ≠ cap ∨ pipeContent reads = []) := by
  constructor
  · intro chunks
    refine ⟨_, readCappedBody_eq (Nat.zero_le cap) chunks, rfl, ?_⟩
    rw [List.nil_append, @exact_iff cap _ (chunks ≠ []) _ fun content empty =>
      content (by rw [empty]; rfl), not_not]
  · intro reads
    rw [readCapped, readPipe_eq (Nat.zero_le cap), List.nil_append,
      @exact_iff cap _ (pipeContent reads ≠ []) _ id, not_not]
    exact ⟨rfl, Iff.rfl⟩

/-- Three bytes are reported as cut at a cap of three. -/
theorem whole_content_cut :
    readCappedBody 3 [] [.ok [1, 2], .ok [3]] = .ok ([1, 2, 3], true) ∧
      readCapped 3 (some [.ok [1, 2], .ok [3]]) [] = ([1, 2, 3], true) ∧
      ¬ Exact 3 (pipeContent [.ok [1, 2], .ok [3]])
        (readCapped 3 (some [.ok [1, 2], .ok [3]]) []) :=
  ⟨rfl, rfl, fun exact => absurd (exact.truncated.mp rfl) (by decide)⟩

end Openheim.Tools
