import Openheim.Library.Matches
import Openheim.Tools.EditFile

/-
This file follows `execute` of `src/tools/edit_file.rs` for one call and proves when its edit is
unambiguous.
-/

namespace Openheim.Tools
open Matches

/-- What becomes of the write. One that fails, or is cancelled, leaves something in the file. -/
inductive WriteOutcome where
  | written
  | failed (reason : Error) (left : Option (List UInt8))

/-- The result of a call that runs alone, and what the file has then. -/
def executeEdit (path : String) (file : Option (List UInt8)) (args : EditFileArgs)
    (outcome : WriteOutcome) :
    Except Error String × Option (List UInt8) :=
  match FileCall.plan path file (.edit args) with
  | .error reason => (.error reason, file)
  | .ok (data, message) =>
      match outcome with
      | .written => (.ok message, some data)
      | .failed reason left => (.error reason, left)

/-- The old string had one position in the content, and the new string stands there. -/
def ReplacedOnce (content old new edited : List Char) : Prop :=
  ∃ before after, content = before ++ old ++ after ∧ edited = before ++ new ++ after ∧
    ∀ position, Occurs old content position → position = before.length

/-- The new string stands for as many occurrences as were counted, and no other text has one. -/
def ReplacedAll (content old new edited : List Char) (count : Nat) : Prop :=
  ∃ kept, kept.length = count + 1 ∧ content = old.intercalate kept ∧ edited = new.intercalate kept ∧
    ∀ piece ∈ kept, ¬ old <:+: piece

/-- A call changes the file only by an unambiguous edit of its text, which it reports. -/
def EditsUnambiguously (path : String) (file : Option (List UInt8)) (args : EditFileArgs)
    (outcome : WriteOutcome) :
    Prop :=
  match executeEdit path file args outcome with
  | (.error _, left) => left = file
  | (.ok message, left) =>
      ∃ content edited count, readText maxEditBytes file = .ok content ∧
        left = some (Utf8.encode edited) ∧ message = successMessage path count ∧
        if args.replaceAll.getD false then
          ReplacedAll content args.oldString args.newString edited count
        else count = 1 ∧ ReplacedOnce content args.oldString args.newString edited

/-- The old string occurs and differs from the new one; unless all occurrences are
meant, no two of them are apart. -/
def Editable (content old new : List Char) (replaceAll : Bool) : Prop :=
  old ≠ [] ∧ old ≠ new ∧ (∃ position, Occurs old content position) ∧
    (replaceAll = true ∨ Clustered old content)

section Search
variable {old : List Char} (nonempty : old ≠ []) (new : List Char)
include nonempty

omit nonempty in
theorem replaceFrom_eq_drop (skip : Nat) (content : List Char) :
    replaceFrom old new skip content = replace (content.drop skip) old new := by
  induction content generalizing skip with
  | nil =>
      rw [List.drop_nil]
      cases skip with
      | zero => rfl
      | succ skip => rfl
  | cons first rest ih =>
      cases skip with
      | zero => rfl
      | succ skip => exact ih skip

omit nonempty in
theorem matchCountFrom_eq_drop (skip : Nat) (content : List Char) :
    matchCountFrom old skip content = matchCount (content.drop skip) old := by
  induction content generalizing skip with
  | nil =>
      rw [List.drop_nil]
      cases skip with
      | zero => rfl
      | succ skip => rfl
  | cons first rest ih =>
      cases skip with
      | zero => rfl
      | succ skip => exact ih skip

/-- All that the three searches do at a match. -/
theorem search_found (rest : List Char) :
    replace (old ++ rest) old new = new ++ replace rest old new ∧
      matchCount (old ++ rest) old = matchCount rest old + 1 ∧
        replacen old new (old ++ rest) = new ++ rest := by
  obtain ⟨first, more, rfl⟩ := List.exists_cons_of_ne_nil nonempty
  have here : (first :: more).isPrefixOf (first :: (more ++ rest)) = true :=
    List.isPrefixOf_iff_prefix.mpr (List.prefix_append (first :: more) rest)
  rw [List.cons_append]
  refine ⟨?_, ?_, ?_⟩
  · rw [replace, replaceFrom, if_pos here, replaceFrom_eq_drop, List.length_cons,
      Nat.add_sub_cancel, List.drop_left]
  · rw [matchCount, matchCountFrom, if_pos here, matchCountFrom_eq_drop, List.length_cons,
      Nat.add_sub_cancel, List.drop_left]
  · rw [replacen, if_pos here, List.length_cons, List.drop_succ_cons, List.drop_left]

omit nonempty in
/-- And what they do where there is none. -/
theorem search_moved {first : Char} {rest : List Char} (absent : ¬ old <+: first :: rest) :
    replace (first :: rest) old new = first :: replace rest old new ∧
      matchCount (first :: rest) old = matchCount rest old ∧
      replacen old new (first :: rest) = first :: replacen old new rest := by
  have elsewhere : ¬ old.isPrefixOf (first :: rest) = true :=
    fun here => absent (List.isPrefixOf_iff_prefix.mp here)
  refine ⟨?_, ?_, ?_⟩
  · rw [replace, replaceFrom, if_neg elsewhere, replace]
  · rw [matchCount, matchCountFrom, if_neg elsewhere, matchCount]
  · rw [replacen, if_neg elsewhere]

theorem replace_eq (content : List Char) :
    replace content old new = new.intercalate (pieces old content) := by
  induction content using search_induction nonempty with
  | nil => rfl
  | found rest ih =>
      rw [(search_found nonempty new rest).1, pieces_found nonempty,
        List.intercalate_cons_of_ne_nil (pieces_ne_nil nonempty rest), ih, List.nil_append]
  | moved first rest absent ih =>
      obtain ⟨piece, more, split⟩ := List.exists_cons_of_ne_nil (pieces_ne_nil nonempty rest)
      rw [(search_moved new absent).1, ih, pieces_moved absent, split, List.modifyHead_cons,
        List.intercalate_cons_cons_left]

theorem matchCount_eq (content : List Char) :
    (pieces old content).length = matchCount content old + 1 := by
  induction content using search_induction nonempty with
  | nil => rfl
  | found rest ih =>
    rw [(search_found nonempty [] rest).2.1, pieces_found nonempty, List.length_cons, ih]
  | moved first rest absent ih =>
      rw [(search_moved [] absent).2.1, pieces_moved absent, List.length_modifyHead, ih]

theorem replacen_eq {content piece next : List Char} {more : List (List Char)}
    (split : pieces old content = piece :: next :: more) :
    replacen old new content = piece ++ new ++ old.intercalate (next :: more) := by
  induction content using search_induction nonempty generalizing piece with
  | nil => cases split
  | found rest ih =>
      rw [pieces_found nonempty] at split
      injection split with empty tail
      rw [(search_found nonempty new rest).2.2, ← empty, ← tail, intercalate_pieces nonempty,
        List.nil_append]
  | moved first rest absent ih =>
      obtain ⟨before, after, tail⟩ := List.exists_cons_of_ne_nil (pieces_ne_nil nonempty rest)
      rw [pieces_moved absent, tail, List.modifyHead_cons] at split
      injection split with head others
      rw [(search_moved new absent).2.2, ih (tail.trans (by rw [others])), ← head]
      rfl

end Search

section Edits
variable {content old new : List Char} {replaceAll : Bool}

/-- An edit that can be made replaces what the search finds. -/
theorem applyEdit_of_editable (editable : Editable content old new replaceAll) :
    applyEdit content old new replaceAll =
      .ok (if replaceAll then replace content old new else replacen old new content,
          matchCount content old) := by
  obtain ⟨nonempty, different, occurs, scope⟩ := editable
  have size := matchCount_eq nonempty content
  have found : matchCount content old ≠ 0 := by
    intro none
    rw [none] at size
    obtain ⟨position, here⟩ := occurs
    exact (pieces_eq_singleton_iff nonempty content).mp size position here
  have few : ¬ (1 < matchCount content old ∧ (!replaceAll) = true) := by
    rintro ⟨many, once⟩
    rcases scope with all | clustered
    · rw [all] at once
      cases once
    · rw [(pieces_eq_pair_iff nonempty content).mpr ⟨occurs, clustered⟩] at size
      omega
  rw [applyEdit, if_neg (by simpa using nonempty), if_neg different]
  dsimp only
  rw [if_neg found, if_neg few]
  split
  · rfl
  · rfl

/-- Every other edit is refused. -/
theorem applyEdit_of_not_editable (refused : ¬ Editable content old new replaceAll) :
    ∃ reason, applyEdit content old new replaceAll = .error reason := by
  unfold applyEdit
  split
  · exact ⟨_, rfl⟩
  · next nonempty =>
    have nonempty : old ≠ [] := by simpa using nonempty
    split
    · exact ⟨_, rfl⟩
    · next different =>
      dsimp only
      have size := matchCount_eq nonempty content
      split
      · exact ⟨_, rfl⟩
      · next found =>
        split
        · exact ⟨_, rfl⟩
        · next few =>
          refine absurd ⟨nonempty, different, ?_, ?_⟩ refused
          · by_contra absent
            have single := (pieces_eq_singleton_iff nonempty content).mpr (not_exists.mp absent)
            omega
          · by_contra neither
            simp only [not_or, Bool.not_eq_true] at neither
            have one : matchCount content old = 1 := by
              by_contra other
              exact few ⟨by omega, by rw [neither.1]; rfl⟩
            rw [one] at size
            exact neither.2 ((pieces_eq_pair_iff nonempty content).mp size).2

theorem replacedAll_replace (nonempty : old ≠ []) (new content : List Char) :
    ReplacedAll content old new (replace content old new) (matchCount content old) :=
  ⟨pieces old content, matchCount_eq nonempty content, (intercalate_pieces nonempty content).symm,
    replace_eq nonempty new content, pieces_free nonempty content⟩

/-- One occurrence is replaced where no two overlap. -/
theorem replacedOnce_replacen (nonempty : old ≠ []) (new : List Char)
    (occurs : ∃ position, Occurs old content position) (clustered : Clustered old content)
    (apart : Disjoint old content) :
    matchCount content old = 1 ∧ ReplacedOnce content old new (replacen old new content) := by
  have pair := (pieces_eq_pair_iff nonempty content).mpr ⟨occurs, clustered⟩
  obtain ⟨before, after, split⟩ := List.length_eq_two.mp pair
  have whole := intercalate_pieces nonempty content
  rw [split, List.intercalate_cons_cons, List.intercalate_singleton] at whole
  have size := matchCount_eq nonempty content
  refine ⟨by omega, before, after, whole.symm, ?_, fun position here => ?_⟩
  · rw [replacen_eq nonempty new split, List.intercalate_singleton]
  · have there : Occurs old content before.length := whole ▸ occurs_append old before after
    rcases Nat.lt_trichotomy position before.length with early | same | late
    · exact absurd (clustered _ _ here there) (Nat.not_lt.mpr (apart _ _ here there early))
    · exact same
    · exact absurd (clustered _ _ there here) (Nat.not_lt.mpr (apart _ _ there here late))

theorem ReplacedOnce.disjoint {edited : List Char} (once : ReplacedOnce content old new edited) :
    Disjoint old content := by
  obtain ⟨before, after, _, _, only⟩ := once
  intro first second one other less
  rw [only first one, only second other] at less
  exact absurd less (Nat.lt_irrefl _)

end Edits

/-- Where an edit can be made and is written, either all occurrences are meant or no two of them
overlap; a write that fails has not changed the file. -/
def OccursApart (file : Option (List UInt8)) (args : EditFileArgs)
    (outcome : WriteOutcome) : Prop :=
  ∀ content, readText maxEditBytes file = .ok content →
    Editable content args.oldString args.newString (args.replaceAll.getD false) →
      match outcome with
      | .written => args.replaceAll.getD false = true ∨ Disjoint args.oldString content
      | .failed _ left => left = file

/-- A call edits unambiguously exactly when no two occurrences overlap, or all are
meant, and no write breaks off. -/
theorem editsUnambiguously_iff (path : String) (file : Option (List UInt8)) (args : EditFileArgs)
    (outcome : WriteOutcome) : EditsUnambiguously path file args outcome ↔
    OccursApart file args outcome := by
  unfold EditsUnambiguously executeEdit FileCall.plan OccursApart
  cases read : readText maxEditBytes file with
  | error reason => exact ⟨fun _ content known => (by cases known), fun _ => rfl⟩
  | ok content =>
      by_cases editable : Editable content args.oldString args.newString
        (args.replaceAll.getD false)
      · have only (property : List Char → Prop) :
            (∀ other, (Except.ok content : Except Error (List Char)) = .ok other →
              Editable other args.oldString args.newString (args.replaceAll.getD false) →
              property other) ↔ property content :=
          ⟨fun each => each content rfl editable, fun holds other same _ =>
            by cases same; exact holds⟩
        simp only [bind, Except.bind, applyEdit_of_editable editable, pure, Except.pure]
        rw [only]
        obtain ⟨nonempty, _, occurs, scope⟩ := editable
        cases outcome with
        | failed reason left => exact Iff.rfl
        | written =>
            constructor
            · rintro ⟨other, edited, count, same, _, _, edit⟩
              cases same
              split at edit
              · next all => exact .inl all
              · exact .inr edit.2.disjoint
            · intro apart
              refine ⟨content, _, matchCount content args.oldString, rfl, rfl, rfl, ?_⟩
              split
              · exact replacedAll_replace nonempty args.newString content
              · next once =>
                exact replacedOnce_replacen nonempty args.newString occurs (scope.resolve_left once)
                  (apart.resolve_left once)
      · obtain ⟨reason, refused⟩ := applyEdit_of_not_editable editable
        simp only [bind, Except.bind, refused, true_iff]
        intro other known can
        cases known
        exact absurd can editable

/-- Two overlapping occurrences count as one match. -/
theorem overlapping_edit :
    ¬ EditsUnambiguously "a.txt" (some (Utf8.encode "aaa".toList)) ⟨"aa".toList, "b".toList,
        none⟩ .written := by
  rintro ⟨content, edited, count, read, _, _, _, before, after, _, _, only⟩
  have text : content = "aaa".toList := (Except.ok.inj read).symm
  subst text
  have first : 0 = before.length := only 0 ⟨"a".toList, rfl⟩
  have second : 1 = before.length := only 1 ⟨[], rfl⟩
  exact absurd (first.trans second.symm) (by decide)

end Openheim.Tools
