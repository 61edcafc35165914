import Openheim.Library.Separated
import Openheim.Subagents.Profile

/-
This file shows when splitting a profile undoes writing one.
-/

namespace Openheim.Subagents
open Openheim.Config (afterStart trimStart)
open Openheim.Tools (AgentProfile)

/-- The lines of a block: none has a newline, and none begins with the delimiter. -/
def IsBlock (block : List (List Char)) : Prop := ∀ line ∈ block, '\n' ∉ line ∧ ¬ delimiter <+: line

/-- A profile as its format says: the delimiter, the lines of the block,
the delimiter and the body. -/
def writeProfile (block : List (List Char)) (body : List Char) : String :=
  String.ofList (delimiter ++ '\n' :: block.flatMap (· ++ ['\n']) ++ delimiter ++ '\n' :: body)

/-- The text of a block, without the newline at its end. -/
def blockText (block : List (List Char)) : String := String.ofList (['\n'].intercalate block)

/-- The profile that a block and a body stand for. -/
def profileOf (readMeta : AgentProfileMeta.Reader) (name : String) (block : List (List Char))
    (body : List Char) :
    Except Error AgentProfile :=
  match readMeta (blockText block) with
  | .error reason => .error (.parseError ("invalid frontmatter: " ++ reason))
  | .ok metadata =>
      .ok {
        name
        description := metadata.description
        model := metadata.model
        provider := metadata.provider
        tools := metadata.tools
        maxIterations := metadata.maxIterations
        systemPrompt := String.ofList (Lines.trim body) }

/-- The first line begins with the delimiter, and no other line does. -/
def NeverClosed (content : String) : Prop :=
  delimiter <+: content.toList ∧ ∀ line ∈ (content.toList.splitOn '\n').tail, ¬ delimiter <+: line

section Splitting
variable {readMeta : AgentProfileMeta.Reader} {content : String} {rest text : List Char}

theorem newline_not_mem_delimiter : '\n' ∉ delimiter := by decide

theorem afterStart_append (start rest : List Char) :
    afterStart start (start ++ rest) = some rest := by
  rw [afterStart, if_pos (List.isPrefixOf_iff_prefix.mpr (List.prefix_append start rest)),
    List.drop_left]

theorem afterStart_none {start : List Char} (absent : ¬ start <+: text) :
    afterStart start text = none := by
  rw [afterStart, if_neg fun here => absent (List.isPrefixOf_iff_prefix.mp here)]

/-- A text that begins with the delimiter has no space to trim in front. -/
theorem trimStart_delimiter (rest : List Char) :
    trimStart (delimiter ++ rest) = delimiter ++ rest := rfl

/-- Without the delimiter in front everything is body. -/
theorem splitFrontmatter_none (absent : ¬ delimiter <+: trimStart content.toList) :
    splitFrontmatter readMeta content = .ok (.empty, content) := by
  rw [splitFrontmatter, afterStart_none absent]

/-- After the delimiter the block ends where the closing delimiter is found. -/
theorem splitFrontmatter_some (starts : content.toList = delimiter ++ rest) :
    splitFrontmatter readMeta content =
      match Fences.cut ('\n' :: delimiter) ((afterStart ['\n'] rest).getD rest) with
      | none => .error (.parseError "unterminated '+++' frontmatter block")
      | some (frontmatter, closing) =>
          match readMeta (String.ofList frontmatter) with
          | .ok metadata => .ok (metadata, String.ofList
              (match Fences.cut ['\n'] (closing.drop 1) with
              | some (_, after) => after.drop 1
              | none => []))
          | .error reason => .error (.parseError ("invalid frontmatter: " ++ reason)) := by
  have started : afterStart delimiter (trimStart content.toList) = some rest := by
    rw [starts, trimStart_delimiter, afterStart_append]
  unfold splitFrontmatter
  generalize afterStart delimiter (trimStart content.toList) = found at started
  cases started
  rfl

theorem cut_newline {line : List Char} (single : '\n' ∉ line) (rest : List Char) :
    Fences.cut ['\n'] (line ++ '\n' :: rest) = some (line, '\n' :: rest) := by
  rw [Fences.cut_line single]
  have here : Fences.cut ['\n'] ('\n' :: rest) = some ([], '\n' :: rest) := Fences.cut_here rest
  rw [here, Option.map_some, List.append_nil]

theorem flatMap_newline (line : List Char) (lines : List (List Char)) (rest : List Char) :
    (line :: lines).flatMap (· ++ ['\n']) ++ rest = ['\n'].intercalate (line :: lines) ++
      '\n' :: rest := by
  induction lines generalizing line with
  | nil => simp [List.intercalate]
  | cons next more ih =>
      rw [List.flatMap_cons, List.append_assoc, ih next]
      simp [List.intercalate]

/-- A block with a line in it is found as it was written, and so is the body. -/
theorem splitFrontmatter_writeProfile {line : List Char} {lines : List (List Char)}
    (body : List Char) (valid : IsBlock (line :: lines)) :
    splitFrontmatter readMeta (writeProfile (line :: lines) body) =
      match readMeta (blockText (line :: lines)) with
      | .ok metadata => .ok (metadata, String.ofList body)
      | .error reason => .error (.parseError ("invalid frontmatter: " ++ reason)) := by
  obtain ⟨⟨single, -⟩, free⟩ := List.forall_mem_cons.mp valid
  have content : (writeProfile (line :: lines) body).toList = delimiter ++
      (['\n'] ++ (['\n'].intercalate (line :: lines) ++ ('\n' :: delimiter ++ '\n' :: body))) := by
    rw [writeProfile, String.toList_ofList, List.append_assoc, List.append_assoc, List.cons_append,
      flatMap_newline]
    rfl
  rw [splitFrontmatter_some content, afterStart_append, Option.getD_some,
    Fences.cut_block newline_not_mem_delimiter single free]
  dsimp only
  have closing : ('\n' :: delimiter ++ '\n' :: body).drop 1 = delimiter ++ '\n' :: body := rfl
  rw [closing, cut_newline newline_not_mem_delimiter]
  rfl

/-- After the first delimiter no closing one is found when no later line begins with one. -/
theorem cut_unclosed {more : List Char} {lines : List (List Char)}
    (plain : '\n' ∉ delimiter ++ more)
    (apart : IsBlock lines) (text : more ++ Fences.later '\n' lines = rest) :
    Fences.cut ('\n' :: delimiter) ((afterStart ['\n'] rest).getD rest) = none := by
  cases more with
  | cons char others =>
      have different : ¬ ['\n'] <+: rest := by
        rintro ⟨_, same⟩
        rw [← same] at text
        exact plain (List.mem_append_right delimiter ((List.cons.inj text).1 ▸ List.mem_cons_self))
      have within : '\n' ∉ char :: others :=
        fun member => plain (List.mem_append_right delimiter member)
      rw [afterStart_none different, Option.getD_none, ← text, ← Fences.intercalate_cons]
      exact Fences.cut_none newline_not_mem_delimiter within apart
  | nil =>
      cases lines with
      | nil =>
          rw [← text]
          rfl
      | cons line tail =>
          obtain ⟨⟨within, -⟩, further⟩ := List.forall_mem_cons.mp apart
          have after : rest = ['\n'] ++ ['\n'].intercalate (line :: tail) := by
            rw [← text, Fences.intercalate_cons]
            rfl
          rw [after, afterStart_append, Option.getD_some]
          exact Fences.cut_none newline_not_mem_delimiter within further

/-- An opening delimiter that is never closed is an error. -/
theorem splitFrontmatter_neverClosed (never : NeverClosed content) :
    splitFrontmatter readMeta content =
      .error (.parseError "unterminated '+++' frontmatter block") := by
  obtain ⟨⟨rest, starts⟩, free⟩ := never
  have single := Separated.not_mem_piece '\n' content.toList
  obtain ⟨first, lines, pieces⟩ :=
    List.exists_cons_of_ne_nil (List.splitOn_ne_nil '\n' content.toList)
  rw [pieces] at single free
  obtain ⟨plain, others⟩ := List.forall_mem_cons.mp single
  have apart : IsBlock lines := fun line member => ⟨others line member, free line member⟩
  have text : first ++ Fences.later '\n' lines = delimiter ++ rest := by
    rw [starts, ← Fences.intercalate_cons, ← pieces, List.intercalate_splitOn]
  -- the delimiter lies within the first line
  have inside : delimiter <+: first := by
    by_contra outside
    have nothing : ∀ char ∈ ([] : List Char).head?, char = '\n' := fun _ absent => nomatch absent
    have ends : ∀ char ∈ (Fences.later '\n' lines ++ []).head?, char = '\n' :=
      Fences.later_append_head nothing
    rw [List.append_nil] at ends
    exact Fences.not_prefix_append newline_not_mem_delimiter outside ends
      (text ▸ List.prefix_append delimiter rest)
  obtain ⟨more, rfl⟩ := inside
  rw [List.append_assoc, List.append_cancel_left_eq] at text
  rw [splitFrontmatter_some starts.symm, cut_unclosed plain apart text]

end Splitting

section Inverse
variable {readMeta : AgentProfileMeta.Reader} {name content : String} {block : List (List Char)}
  {body : List Char}

/-- A profile is read as it was written when its block has a line. -/
theorem parseProfile_writeProfile (valid : IsBlock block) (some : block ≠ []) :
    parseProfile readMeta name (writeProfile block body) = profileOf readMeta name block body := by
  obtain ⟨line, lines, rfl⟩ := List.exists_cons_of_ne_nil some
  rw [parseProfile, splitFrontmatter_writeProfile body valid, profileOf]
  cases readMeta (blockText (line :: lines)) with
  | error reason => rfl
  | ok metadata =>
      dsimp only
      rw [String.toList_ofList]

/-- Reads nothing but the empty text. -/
def emptyReader : AgentProfileMeta.Reader := fun text => if text = "" then .ok .empty
    else .error "unexpected text"

/-- Without a line in the block the closing delimiter is passed by,
and what is read is not empty. -/
theorem parseProfile_writeProfile_nil (name : String) (body : List Char) :
    ∃ error, parseProfile emptyReader name (writeProfile [] body) = .error error := by
  have starts : (writeProfile [] body).toList = delimiter ++
      (['\n'] ++ (delimiter ++ '\n' :: body)) := by
    rw [writeProfile, String.toList_ofList]
    rfl
  rw [parseProfile, splitFrontmatter_some starts, afterStart_append, Option.getD_some]
  cases found : Fences.cut ('\n' :: delimiter) (delimiter ++ '\n' :: body) with
  | none => exact ⟨_, rfl⟩
  | some parts =>
      obtain ⟨frontmatter, closing⟩ := parts
      obtain ⟨whole, tail, same⟩ := Fences.cut_some found
      have nonempty : String.ofList frontmatter ≠ "" := by
        intro empty
        have nothing : frontmatter = [] := by simpa using empty
        rw [nothing, ← same] at whole
        cases whole
      dsimp only
      rw [emptyReader, if_neg nonempty]
      exact ⟨_, rfl⟩

/-- With the delimiter after the space in front, a reader that refuses every block is asked. -/
theorem splitFrontmatter_refused (starts : delimiter <+: trimStart content.toList)
    (reason : String) :
    ∃ error, splitFrontmatter (fun _ => .error reason) content = .error error := by
  obtain ⟨rest, same⟩ := starts
  rw [splitFrontmatter, ← same, afterStart_append]
  dsimp only
  split
  · exact ⟨_, rfl⟩
  · exact ⟨_, rfl⟩

/-- A profile is read as it was written exactly when its block has a line, a text without the
delimiter in front is all body exactly when there is none after the space in front either, and an
unclosed block is an error. -/
theorem splitFrontmatter_iff (block : List (List Char)) (body : List Char) (content : String) :
    (IsBlock block →
      ((∀ readMeta name, parseProfile readMeta name (writeProfile block body) =
            profileOf readMeta name block body) ↔
        block ≠ [])) ∧
    (¬ delimiter <+: content.toList →
      ((∀ readMeta, splitFrontmatter readMeta content = .ok (.empty, content)) ↔
        ¬ delimiter <+: trimStart content.toList)) ∧
    (NeverClosed content → ∀ readMeta,
      splitFrontmatter readMeta content =
        .error (.parseError "unterminated '+++' frontmatter block")) := by
  refine ⟨fun valid => ⟨?_, fun some _ _ => parseProfile_writeProfile valid some⟩,
    fun _ => ⟨?_, ?_⟩, fun never _ => splitFrontmatter_neverClosed never⟩
  · rintro inverse rfl
    obtain ⟨error, fails⟩ := parseProfile_writeProfile_nil "" body
    have reads := inverse emptyReader ""
    rw [fails] at reads
    cases reads
  · intro all starts
    obtain ⟨error, fails⟩ := splitFrontmatter_refused starts ""
    have reads := all fun _ => .error ""
    rw [fails] at reads
    cases reads
  · exact fun absent _ => splitFrontmatter_none absent

/-- An empty block is not closed by the delimiter after it, and a block that is no TOML is refused
though a space stands in front of it. -/
theorem splitFrontmatter_fails :
    (writeProfile [] "Be brief.\n".toList = "+++\n+++\nBe brief.\n" ∧
      (profileOf emptyReader "reviewer" [] "Be brief.\n".toList).map AgentProfile.systemPrompt =
        .ok "Be brief." ∧
      ∃ error, parseProfile emptyReader "reviewer" (writeProfile [] "Be brief.\n".toList) =
        .error error) ∧
    (¬ delimiter <+: " +++\n=\n+++\n".toList ∧
      ∃ error, splitFrontmatter (fun _ => .error "no table") " +++\n=\n+++\n" = .error error) :=
  ⟨⟨rfl, rfl, parseProfile_writeProfile_nil _ _⟩, by decide,
    splitFrontmatter_refused ⟨['\n', '=', '\n', '+', '+', '+', '\n'], rfl⟩ _⟩

end Inverse

end Openheim.Subagents
