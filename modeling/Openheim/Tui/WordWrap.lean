import Mathlib.Data.List.Forall2
import Openheim.Tui.Render

/-
This file shows that the word wrap of the chat keeps every word and needs the fewest lines, and that
what it draws of a message stays within the width.
-/

namespace Openheim.Tui
open Filling

/-- The words of one line with blanks between them. -/
def joined (row : List (List Char)) : List Char := [' '].intercalate row

section Rows
variable {width : Nat} {row words : List (List Char)}

theorem joined_concat (nonempty : row ≠ []) (word : List Char) :
    joined (row ++ [word]) = joined row ++ ' ' :: word := by
  induction row with
  | nil => exact absurd rfl nonempty
  | cons first row ih =>
      cases row with
      | nil => simp [joined]
      | cons next row =>
          have later := ih (List.cons_ne_nil next row)
          simp only [joined, List.cons_append, List.intercalate_cons_cons] at later ⊢
          rw [later]
          simp

/-- A row is as wide as its line. -/
theorem rowSize_eq (row : List (List Char)) : rowSize List.length row = (joined row).length := by
  induction row using List.reverseRecOn with
  | nil => rfl
  | append_singleton row word ih =>
      by_cases nonempty : row = []
      · simp [nonempty, rowSize, joined]
      · rw [rowSize_concat nonempty, joined_concat nonempty, ih, List.length_append,
          List.length_cons]
        omega

theorem joined_ne_nil (nonempty : row ≠ []) (plain : ∀ word ∈ row, word ≠ []) :
    (joined row).isEmpty = false := by
  cases row with
  | nil => exact absurd rfl nonempty
  | cons word row =>
      obtain ⟨char, rest, rfl⟩ := List.exists_cons_of_ne_nil (plain word List.mem_cons_self)
      cases row with
      | nil => rfl
      | cons next row => rw [joined, List.intercalate_cons_cons]; rfl

/-- The line that is being filled is that of a row. -/
theorem wrapFrom_joined (nonempty : row ≠ []) (plain : ∀ word ∈ row ++ words, word ≠ []) :
    wrapFrom width (joined row) (joined row).length words =
      (fillFrom List.length width row words).map joined := by
  induction words generalizing row with
  | nil =>
      rw [List.append_nil] at plain
      rw [wrapFrom, joined_ne_nil nonempty plain, fillFrom]
      rfl
  | cons word words ih =>
      have current :=
        joined_ne_nil nonempty fun other member => plain other (List.mem_append_left _ member)
      rw [wrapFrom, current, if_neg Bool.false_ne_true, fillFrom, rowSize_eq]
      split
      · have length : (joined row).length + 1 + word.length = (joined (row ++ [word])).length := by
          rw [joined_concat nonempty, List.length_append, List.length_cons]
          omega
        rw [length, ← joined_concat nonempty]
        exact ih (by simp) (by rwa [List.append_assoc, List.singleton_append])
      · have single : word = joined [word] := List.intercalate_singleton.symm
        rw [List.map_cons]
        congr 1
        conv => lhs; rw [single]
        exact ih (List.cons_ne_nil _ _) fun other member =>
          plain other (List.mem_append_right _ member)

theorem wrapFrom_fill (plain : ∀ word ∈ words, word ≠ []) :
    wrapFrom width [] 0 words = (fill List.length width words).map joined := by
  cases words with
  | nil => rfl
  | cons word words =>
      have single : word = joined [word] := List.intercalate_singleton.symm
      rw [wrapFrom, List.isEmpty_nil, if_pos rfl, fill]
      conv => lhs; rw [single]
      exact wrapFrom_joined (List.cons_ne_nil _ _) plain

theorem splitWhitespace_plain (text : List Char) :
    ∀ word ∈ Lines.splitWhitespace text, word ≠ [] := by
  intro word member
  have kept := (List.mem_filter.mp member).2
  rintro rfl
  cases kept

/-- A blank paragraph has no words, and another one has some. -/
theorem splitWhitespace_eq_nil_iff (text : List Char) : Lines.splitWhitespace text = [] ↔
    Lines.isBlank text = true := by
  rw [Lines.splitWhitespace, List.filter_eq_nil_iff, Lines.isBlank, List.all_eq_true]
  simp only [Bool.not_eq_true, Bool.not_eq_false', List.isEmpty_iff]
  induction text with
  | nil => simp [List.splitOnP_nil]
  | cons char text ih =>
      rw [List.splitOnP_cons_eq_if_modifyHead]
      by_cases space : Lines.isWhitespace char
      · simp [space, ih]
      · obtain ⟨head, later, same⟩ :=
          List.exists_cons_of_ne_nil (List.splitOnP_ne_nil Lines.isWhitespace text)
        simp [space, same]

end Rows

/-- The rows of words of a paragraph: they hold its words in their order, and no other
rows of this width are fewer. -/
structure FewestRows (width : Nat) (para : List Char) (rows : List (List (List Char))) : Prop where
  words : rows.flatten = Lines.splitWhitespace para
  fits : ∀ row ∈ rows, row ≠ [] ∧ (row.length ≤ 1 ∨ (joined row).length ≤ width)
  fewest : ∀ other : List (List (List Char)), other.flatten = Lines.splitWhitespace para →
    (∀ row ∈ other, row.length ≤ 1 ∨ (joined row).length ≤ width) → rows.length ≤ other.length

theorem fill_fewestRows (width : Nat) (para : List Char) :
    FewestRows width para (fill List.length width (Lines.splitWhitespace para)) where
  words := flatten_fill _
  fits row member := by
    rw [← rowSize_eq]
    exact fits_fill _ row member
  fewest other words fits := by
    refine fill_fewest (fun row member => ?_) (words ▸ List.suffix_refl _)
    rw [Fits, rowSize_eq]
    exact fits row member

/-- The lines of a wrapped text are those of its paragraphs. Each paragraph is divided between words
into as few lines as the width allows, and a blank one is an empty line. -/
theorem wordWrap_fewest (text : List Char) {width : Nat} (positive : 0 < width) :
    ∃ paragraphs, List.Forall₂ (FewestRows width) (text.splitOn '\n') paragraphs ∧
      wordWrap text width = paragraphs.flatMap fun rows => if rows.isEmpty then [[]]
        else rows.map joined := by
  refine ⟨(text.splitOn '\n').map fun para => fill List.length width (Lines.splitWhitespace para),
    ?_, ?_⟩
  · rw [List.forall₂_map_right_iff, List.forall₂_same]
    exact fun para _ => fill_fewestRows width para
  · rw [wordWrap, if_neg (Nat.pos_iff_ne_zero.mp positive), List.flatMap_map]
    refine List.flatMap_congr fun para _ => ?_
    by_cases blank : Lines.isBlank para
    · rw [if_pos blank, (splitWhitespace_eq_nil_iff para).mpr blank]
      rfl
    · have some : Lines.splitWhitespace para ≠ [] := fun none =>
        blank ((splitWhitespace_eq_nil_iff para).mp none)
      rw [if_neg blank, wrapFrom_fill (splitWhitespace_plain para)]
      cases read : Lines.splitWhitespace para with
      | nil => exact absurd read some
      | cons word words =>
          obtain ⟨left, _, length⟩ := @fillFrom_length _ List.length width [word] words
          have filled : (fillFrom List.length width [word] words).isEmpty = false := by
            rw [List.isEmpty_eq_false_iff, ← List.length_pos_iff, length]
            exact Nat.succ_pos _
          rw [fill, filled, if_neg Bool.false_ne_true]

/-- A long text is wrapped into four lines. -/
theorem wordWrap_fewest_sample : ∃ paragraphs,
    List.Forall₂ (FewestRows 10) ("list  the files\n\nin src/".toList.splitOn '\n') paragraphs ∧
      ["list the".toList, "files".toList, [], "in src/".toList] =
        paragraphs.flatMap fun rows => if rows.isEmpty then [[]] else rows.map joined := by
  have wrapped : wordWrap "list  the files\n\nin src/".toList 10 =
      ["list the".toList, "files".toList, [], "in src/".toList] := by decide
  rw [← wrapped]
  exact wordWrap_fewest _ (by decide)

section Widths
variable {width : Nat} {line current : List Char}

/-- Pieces hold all of the line, and none is too wide. -/
theorem chunksFrom_pieces (positive : 0 < width) (fits : current.length ≤ width) :
    (chunksFrom width current line).flatten = current ++ line ∧
      ∀ piece ∈ chunksFrom width current line, piece.length ≤ width := by
  induction line generalizing current with
  | nil =>
      rw [chunksFrom]
      split
      · next empty => simp [List.isEmpty_iff.mp empty]
      · simpa using fits
  | cons char line ih =>
      rw [chunksFrom]
      split
      · next room =>
        have still : (current ++ [char]).length ≤ width := by simpa using Nat.succ_le_of_lt room
        have longer := ih still
        rwa [List.append_assoc, List.singleton_append] at longer
      · have alone : [char].length ≤ width := positive
        obtain ⟨whole, pieces⟩ := ih alone
        exact ⟨by rw [List.flatten_cons, whole, List.singleton_append],
          List.forall_mem_cons.mpr ⟨fits, pieces⟩⟩

theorem chunkLine_fits (width : Nat) (line : List Char) :
    ∀ piece ∈ chunkLine width line, piece.length ≤ max width 1 := by
  rw [chunkLine]
  split
  · next fits => exact List.forall_mem_singleton.mpr (fits.trans (Nat.le_max_left _ _))
  · exact (chunksFrom_pieces (by omega) (Nat.zero_le _)).2

/-- The text of a bubble is as wide as its widest line. -/
theorem le_contentW {wrapped : List (List Char)} (member : line ∈ wrapped) :
    line.length ≤ max ((wrapped.map List.length).max?.getD 0) 1 :=
  (List.le_max?_getD_of_mem (List.mem_map_of_mem member)).trans (Nat.le_max_left _ _)

theorem contentW_le {wrapped : List (List Char)} {limit : Nat} (positive : 1 ≤ limit)
    (fits : ∀ line ∈ wrapped, line.length ≤ limit) :
    max ((wrapped.map List.length).max?.getD 0) 1 ≤ limit := by
  refine Nat.max_le.mpr ⟨?_, positive⟩
  cases found : (wrapped.map List.length).max? with
  | none => exact Nat.zero_le _
  | some widest =>
      obtain ⟨line, member, rfl⟩ := List.mem_map.mp (List.max?_mem found)
      exact fits line member

theorem frame_lengths :
    "  ".length = 2 ∧ "╭".length = 1 ∧ "╮".length = 1 ∧ "│ ".length = 2 ∧ " │".length = 2 ∧
    "╰".length = 1 ∧ "╯".length = 1 := by decide

/-- A bubble is a frame of one width around its text. -/
theorem userBubble_width (text : String) (theme : Color) (wide : 9 ≤ width) :
    ∀ line ∈ userBubble text width theme, Line.width line ≤ width := by
  have limit : contentMax width ≤ width - 8 := by rw [contentMax]; omega
  have positive : 1 ≤ contentMax width := by rw [contentMax]; omega
  rw [userBubble]
  generalize lines : (wordWrap text.toList (contentMax width)).flatMap
    (chunkLine (contentMax width)) = wrapped
  have pieces : ∀ line ∈ wrapped, line.length ≤ contentMax width := by
    rw [← lines]
    intro line member
    obtain ⟨whole, _, piece⟩ := List.mem_flatMap.mp member
    exact (chunkLine_fits _ whole line piece).trans_eq (Nat.max_eq_left positive)
  have content := contentW_le positive pieces
  intro line member
  simp only [List.mem_append, List.mem_cons, List.mem_map, List.not_mem_nil, or_false] at member
  rcases member with (rfl | ⟨piece, inside, rfl⟩) | rfl | rfl
  · simp [Line.width, Span.raw, Span.styled, frame_lengths]
    omega
  · have short := le_contentW inside
    simp [Line.width, Span.raw, Span.styled, frame_lengths]
    omega
  · simp [Line.width, Span.raw, Span.styled, frame_lengths]
    omega
  · exact Nat.zero_le _

/-- What is drawn of a message stays within the width, whatever the words are. -/
theorem messages_within_width (text : String) (theme : Color) (next : Option ChatItem)
    (wide : 9 ≤ width) :
    ∀ item ∈ [ChatItem.userMessage text, .assistantMessage text],
      ∀ line ∈ itemLines width theme next item,
      Line.width line ≤ width := by
  intro item member line drawn
  simp only [List.mem_cons, List.not_mem_nil, or_false] at member
  rcases member with rfl | rfl
  · exact userBubble_width text theme wide line drawn
  · simp only [itemLines, List.mem_append, List.mem_map, List.mem_singleton] at drawn
    rcases drawn with ⟨piece, inside, rfl⟩ | rfl
    · obtain ⟨whole, _, cut⟩ := List.mem_flatMap.mp inside
      have short := chunkLine_fits _ whole piece cut
      simp [Line.width, Span.styled, frame_lengths]
      omega
    · exact Nat.zero_le _

theorem messages_within_width_sample :
    ∀ item ∈ [ChatItem.userMessage "extraordinarily", .assistantMessage "extraordinarily"],
    ∀ line ∈ itemLines 12 .darkGray none item, Line.width line ≤ 12 :=
  messages_within_width "extraordinarily" .darkGray none (by decide)

end Widths

end Openheim.Tui
