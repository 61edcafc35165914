import Mathlib.Data.List.Infix

/-
This library describes the decoding of entities, codes that begin with a mark and stand for one
element each. A text is decoded for a whole table at once. The results say when decoding one table
after another comes to the same.
-/

namespace Entities
variable {α : Type*}

/-- A code and the element it stands for. -/
structure Entity (α : Type*) where
  code : List α
  element : α
  deriving DecidableEq, Repr

/-- No code is the beginning of another, and each has its mark at the beginning only. -/
structure Separate (mark : α) (table : List (Entity α)) : Prop where
  marked : ∀ entity ∈ table, entity.code.head? = some mark
  single : ∀ entity ∈ table, mark ∉ entity.code.tail
  apart : ∀ entity ∈ table, ∀ other ∈ table, entity.code <+: other.code → entity = other

section Separate
variable {mark : α} {table : List (Entity α)} (separate : Separate mark table)
include separate

theorem Separate.code_eq {entity : Entity α} (member : entity ∈ table) :
    ∃ body, entity.code = mark :: body ∧ mark ∉ body := by
  have marked := separate.marked entity member
  have single := separate.single entity member
  cases code : entity.code with
  | nil => simp [code] at marked
  | cons first body =>
      rw [code] at marked single
      obtain rfl := Option.some.inj marked
      exact ⟨body, rfl, single⟩

theorem Separate.unique {entity other : Entity α} {text : List α} (member : entity ∈ table)
    (others : other ∈ table)
    (here : entity.code <+: text) (there : other.code <+: text) : entity = other := by
  rcases List.prefix_or_prefix_of_prefix here there with shorter | longer
  · exact separate.apart entity member other others shorter
  · exact (separate.apart other others entity member longer).symm

theorem Separate.of_subset {part : List (Entity α)} (subset : part ⊆ table) :
    Separate mark part where
  marked entity member := separate.marked entity (subset member)
  single entity member := separate.single entity (subset member)
  apart entity member other others := separate.apart entity (subset member) other (subset others)

theorem Separate.not_prefix_of_ne {entity : Entity α} (member : entity ∈ table) {first : α}
    (different : first ≠ mark) (rest : List α) : ¬ entity.code <+: first :: rest := by
  obtain ⟨body, code, -⟩ := separate.code_eq member
  rw [code, List.cons_prefix_cons]
  exact fun here => different here.1.symm

end Separate

variable [DecidableEq α]

/-- Decodes the text. The first argument counts the elements of the last code
that are still to be skipped. -/
def decodeFrom (table : List (Entity α)) : Nat → List α → List α
  | _, [] => []
  | skip + 1, _ :: rest => decodeFrom table skip rest
  | 0, first :: rest =>
      match table.find? fun entity => entity.code.isPrefixOf (first :: rest) with
      | some entity => entity.element :: decodeFrom table (entity.code.length - 1) rest
      | none => first :: decodeFrom table 0 rest

def decode (table : List (Entity α)) (text : List α) : List α := decodeFrom table 0 text

@[simp] theorem decode_nil (table : List (Entity α)) : decode table [] = [] := rfl

theorem decodeFrom_eq_drop (table : List (Entity α)) (skip : Nat) (text : List α) :
    decodeFrom table skip text = decode table (text.drop skip) := by
  induction text generalizing skip with
  | nil =>
      rw [List.drop_nil]
      cases skip with
      | zero => rfl
      | succ skip => rfl
  | cons first rest ih =>
      cases skip with
      | zero => rfl
      | succ skip => exact ih skip

theorem decode_moved {table : List (Entity α)} {first : α} {rest : List α}
    (absent : ∀ entity ∈ table, ¬ entity.code <+: first :: rest) :
    decode table (first :: rest) = first :: decode table rest := by
  have none : table.find? (fun entity => entity.code.isPrefixOf (first :: rest)) = none :=
    List.find?_eq_none.mpr fun entity member here =>
      absent entity member (List.isPrefixOf_iff_prefix.mp here)
  rw [decode, decodeFrom, none, decode]

section Decode
variable {mark : α} {table : List (Entity α)} (separate : Separate mark table)
include separate

theorem decode_found {entity : Entity α} (member : entity ∈ table) (rest : List α) :
    decode table (entity.code ++ rest) = entity.element :: decode table rest := by
  obtain ⟨body, code, -⟩ := separate.code_eq member
  have here : entity.code <+: entity.code ++ rest := List.prefix_append _ _
  have found : table.find? (fun other => other.code.isPrefixOf (entity.code ++ rest)) =
      some entity := by
    cases search : table.find? fun other => other.code.isPrefixOf (entity.code ++ rest) with
    | none =>
      exact absurd (List.isPrefixOf_iff_prefix.mpr here)
        (List.find?_eq_none.mp search entity member)
    | some other =>
        have there := List.find?_some search
        rw [separate.unique member (List.mem_of_find?_eq_some search) here
          (List.isPrefixOf_iff_prefix.mp there)]
  have length : entity.code.length - 1 = body.length := by
    rw [code, List.length_cons, Nat.add_sub_cancel]
  rw [code, List.cons_append] at found ⊢
  rw [decode, decodeFrom, found]
  simp only
  rw [length, decodeFrom_eq_drop, List.drop_left]

omit [DecidableEq α] in
/-- A text begins with a code or has none at its beginning. -/
theorem table_induction {motive : List α → Prop} (nil : motive [])
    (found : ∀ entity ∈ table, ∀ rest, motive rest → motive (entity.code ++ rest))
    (moved : ∀ first rest, (∀ entity ∈ table, ¬ entity.code <+: first :: rest) → motive rest →
      motive (first :: rest))
    (text : List α) : motive text := by
  induction size : text.length using Nat.strong_induction_on generalizing text with
  | _ _ ih =>
    cases text with
    | nil => exact nil
    | cons first rest =>
        by_cases here : ∃ entity ∈ table, entity.code <+: first :: rest
        · obtain ⟨entity, member, after, whole⟩ := here
          obtain ⟨body, code, -⟩ := separate.code_eq member
          rw [← whole]
          refine found entity member after (ih after.length ?_ after rfl)
          rw [← size, ← whole, code, List.length_append, List.length_cons]
          omega
        · refine moved first rest (fun entity member prefixed => here ⟨entity, member, prefixed⟩)
            (ih rest.length ?_ rest rfl)
          rw [← size, List.length_cons]
          exact Nat.lt_succ_self _

/-- What has no mark is passed over. -/
theorem decode_unmarked {part : List α} (unmarked : mark ∉ part) (rest : List α) :
    decode table (part ++ rest) = part ++ decode table rest := by
  induction part with
  | nil => rfl
  | cons first part ih =>
      obtain ⟨different, others⟩ := not_or.mp (mt List.mem_cons.mpr unmarked)
      rw [List.cons_append, decode_moved fun entity member =>
        separate.not_prefix_of_ne member (Ne.symm different) _, ih others, List.cons_append]

/-- A code that is not of the table is passed over. -/
theorem decode_other {code : List α} (marked : code.head? = some mark) (single : mark ∉ code.tail)
    (apart : ∀ entity ∈ table, ¬ entity.code <+: code ∧ ¬ code <+: entity.code) (rest : List α) :
    decode table (code ++ rest) = code ++ decode table rest := by
  cases code with
  | nil => cases marked
  | cons first body =>
      have absent : ∀ entity ∈ table, ¬ entity.code <+: first :: (body ++ rest) := by
        intro entity member here
        rcases List.prefix_or_prefix_of_prefix here (List.prefix_append (first :: body) rest) with
          shorter | longer
        · exact (apart entity member).1 shorter
        · exact (apart entity member).2 longer
      rw [List.cons_append, decode_moved absent, @decode_unmarked _ _ _ _ separate body single,
        List.cons_append]

/-- What begins the decoded text begins the text, unless it has a mark or a decoded element. -/
theorem prefix_decode {part : List α} (unmarked : mark ∉ part)
    (fresh : ∀ entity ∈ table, entity.element ∉ part)
    (text : List α) : part <+: decode table text ↔ part <+: text := by
  induction text using table_induction separate generalizing part with
  | nil => rfl
  | found entity member rest ih =>
      cases part with
      | nil => exact iff_of_true List.nil_prefix List.nil_prefix
      | cons first part =>
          obtain ⟨body, code, -⟩ := separate.code_eq member
          rw [decode_found separate member, code, List.cons_append, List.cons_prefix_cons,
            List.cons_prefix_cons]
          refine iff_of_false (fun here => fresh entity member ?_) fun here => unmarked ?_
          · exact here.1 ▸ List.mem_cons_self
          · exact here.1 ▸ List.mem_cons_self
  | moved first rest absent ih =>
      cases part with
      | nil => exact iff_of_true List.nil_prefix List.nil_prefix
      | cons other part =>
          rw [decode_moved absent, List.cons_prefix_cons, List.cons_prefix_cons,
            ih (fun inside => unmarked (List.mem_cons_of_mem _ inside))
              fun entity member inside => fresh entity member (List.mem_cons_of_mem _ inside)]

omit [DecidableEq α] in
/-- A text that begins with a code is in two parts, the first of them a code, if it
begins there or is in the second. -/
theorem code_infix_iff {other first : Entity α} (member : other ∈ table) (others : first ∈ table)
    (tail rest : List α) :
    other.code ++ tail <:+: first.code ++ rest ↔
      other.code ++ tail <+: first.code ++ rest ∨ other.code ++ tail <:+: rest := by
  obtain ⟨body, code, unmarked⟩ := separate.code_eq others
  obtain ⟨otherBody, otherCode, -⟩ := separate.code_eq member
  have inside : mark :: (otherBody ++ tail) <:+: body ++ rest ↔
      mark :: (otherBody ++ tail) <:+: rest := by
    clear code
    induction body with
    | nil => rfl
    | cons next body ih =>
        obtain ⟨different, later⟩ := not_or.mp (mt List.mem_cons.mpr unmarked)
        rw [List.cons_append, List.infix_cons_iff, List.cons_prefix_cons, ih later]
        exact or_iff_right fun here => different here.1
  rw [code, otherCode, List.cons_append, List.cons_append, List.infix_cons_iff, inside]

end Decode

section Chain
variable {mark : α} {entity : Entity α} {table : List (Entity α)}
  (separate : Separate mark (entity :: table))
include separate

/-- A code is there after the first entity is decoded if and only if it was there before. -/
theorem code_prefix_decode {other : Entity α} (member : other ∈ entity :: table)
    (fresh : entity.element ∉ other.code.tail) (first : α) (rest : List α) :
    other.code <+: first :: decode [entity] rest ↔ other.code <+: first :: rest := by
  obtain ⟨body, code, unmarked⟩ := separate.code_eq member
  rw [code, List.tail_cons] at fresh
  have single : Separate mark [entity] := separate.of_subset (by simp)
  have outside : ∀ another ∈ [entity], another.element ∉ body := by
    intro another inside
    rwa [List.mem_singleton.mp inside]
  rw [code, List.cons_prefix_cons, List.cons_prefix_cons, prefix_decode single unmarked outside]

/-- Another code is passed over. -/
theorem decode_pass {other : Entity α} (member : other ∈ entity :: table)
    (different : other ≠ entity)
    (rest : List α) :
    decode [entity] (other.code ++ rest) = other.code ++ decode [entity] rest := by
  have here : entity ∈ entity :: table := List.mem_cons_self
  refine decode_other (separate.of_subset (by simp)) (separate.marked _ member)
    (separate.single _ member) ?_ rest
  intro another inside
  obtain rfl := List.mem_singleton.mp inside
  exact ⟨fun shorter => different (separate.apart _ here _ member shorter).symm,
    fun longer => different (separate.apart _ member _ here longer)⟩

theorem decode_first (rest : List α) :
    decode [entity] (entity.code ++ rest) = entity.element :: decode [entity] rest :=
  decode_found (separate.of_subset (by simp)) List.mem_cons_self rest

omit separate in
theorem decode_first_moved {first : α} {rest : List α}
    (absent : ∀ other ∈ entity :: table, ¬ other.code <+: first :: rest) :
    decode [entity] (first :: rest) = first :: decode [entity] rest :=
  decode_moved fun _ inside => List.mem_singleton.mp inside ▸ absent entity List.mem_cons_self

/-- The first of several entities can be decoded before the others, if its
element is in none of their codes. -/
theorem decode_cons (fresh : ∀ other ∈ table, entity.element ∉ other.code) (text : List α) :
    decode (entity :: table) text = decode table (decode [entity] text) := by
  have later : Separate mark table := separate.of_subset (List.subset_cons_self _ _)
  induction text using table_induction separate with
  | nil => rfl
  | found other member rest ih =>
      rw [decode_found separate member]
      by_cases same : other = entity
      · have absent : ∀ another ∈ table,
            ¬ another.code <+: entity.element :: decode [entity] rest := by
          intro another inside prefixed
          obtain ⟨body, code, -⟩ := later.code_eq inside
          rw [code, List.cons_prefix_cons] at prefixed
          exact fresh another inside (by rw [code, prefixed.1]; exact List.mem_cons_self)
        rw [same, decode_first separate, decode_moved absent, ih]
      · have inside : other ∈ table := (List.mem_cons.mp member).resolve_left same
        rw [decode_pass separate member same, decode_found later inside, ih]
  | moved first rest absent ih =>
      have absentLater : ∀ other ∈ table, ¬ other.code <+: first :: decode [entity] rest := by
        intro other inside
        have member := List.mem_cons_of_mem entity inside
        rw [code_prefix_decode separate member fun tail =>
          fresh other inside (List.mem_of_mem_tail tail)]
        exact absent other member
      rw [decode_moved absent, decode_first_moved absent, decode_moved absentLater, ih]

/-- Decoding the first entity neither makes nor breaks a text that begins with another code. -/
theorem infix_decode_iff {other : Entity α} (member : other ∈ entity :: table)
    (different : other ≠ entity)
    {part : List α} (unmarked : mark ∉ part) (fresh : entity.element ∉ other.code ++ part)
    (text : List α) :
    other.code ++ part <:+: decode [entity] text ↔ other.code ++ part <:+: text := by
  have single : Separate mark [entity] := separate.of_subset (by simp)
  obtain ⟨body, code, unmarkedBody⟩ := separate.code_eq member
  induction text using table_induction single with
  | nil => rfl
  | found another inside rest ih =>
      have later : other.code ++ part <:+: decode [entity] rest ↔ other.code ++ part <:+: rest := ih
      obtain rfl := List.mem_singleton.mp inside
      rw [decode_first separate, List.infix_cons_iff,
        code_infix_iff separate member List.mem_cons_self, later]
      rw [or_iff_right fun prefixed => fresh ?_, or_iff_right fun prefixed => different ?_]
      · exact separate.unique member List.mem_cons_self ((List.prefix_append _ _).trans prefixed)
          (List.prefix_append _ _)
      · rw [code] at prefixed ⊢
        exact (List.cons_prefix_cons.mp prefixed).1 ▸ List.mem_cons_self
  | moved first rest absent ih =>
      have later : other.code ++ part <:+: decode [entity] rest ↔ other.code ++ part <:+: rest := ih
      have outside : mark ∉ body ++ part := fun inside =>
        (List.mem_append.mp inside).elim unmarkedBody unmarked
      have elsewhere : ∀ another ∈ [entity], another.element ∉ body ++ part := by
        intro another inside present
        obtain rfl := List.mem_singleton.mp inside
        exact fresh (by rw [code]; exact List.mem_cons_of_mem _ present)
      rw [decode_moved absent, List.infix_cons_iff, List.infix_cons_iff, later, code,
        List.cons_append, List.cons_prefix_cons, List.cons_prefix_cons,
          prefix_decode single outside elsewhere]

end Chain

section Marking
variable {mark : α} {entity : Entity α} {table : List (Entity α)}
  (separate : Separate mark (entity :: table))
  (marking : entity.element = mark)
include separate marking

/-- A decoded mark makes another code with what follows it. -/
theorem code_prefix_marked {other : Entity α} (inside : other ∈ table) (rest : List α) :
    other.code <+: mark :: decode [entity] rest ↔ other.code.tail <+: rest := by
  have later : Separate mark table := separate.of_subset (List.subset_cons_self _ _)
  obtain ⟨body, code, -⟩ := later.code_eq inside
  rw [code_prefix_decode separate (List.mem_cons_of_mem _ inside)
    (marking ▸ later.single other inside), code, List.cons_prefix_cons, List.tail_cons,
      and_iff_right rfl]

/-- An entity for the mark itself can be decoded before the others if and only if its code is
nowhere followed by the rest of another code. -/
theorem decode_cons_marking_iff (fresh : ∀ other ∈ table, other.element ≠ mark) (text : List α) :
    decode table (decode [entity] text) = decode (entity :: table) text ↔
      ∀ other ∈ table, ¬ entity.code ++ other.code.tail <:+: text := by
  have later : Separate mark table := separate.of_subset (List.subset_cons_self _ _)
  have here : entity ∈ entity :: table := List.mem_cons_self
  induction text using table_induction separate with
  | nil =>
      refine iff_of_true rfl fun other _ inside => ?_
      obtain ⟨body, code, -⟩ := separate.code_eq here
      rw [code] at inside
      exact List.cons_ne_nil _ _ (List.infix_nil.mp inside)
  | found other member rest ih =>
      rw [decode_found separate member]
      by_cases same : other = entity
      · rw [same, decode_first separate, marking]
        by_cases doubled : ∃ another ∈ table, another.code.tail <+: rest
        · obtain ⟨another, inside, follows⟩ := doubled
          obtain ⟨after, whole⟩ := (code_prefix_marked separate marking inside rest).mpr follows
          refine iff_of_false (fun equal => ?_) fun none => none another inside ?_
          · rw [← whole, decode_found later inside] at equal
            exact fresh another inside (List.cons.inj equal).1
          · exact ((List.prefix_append_right_inj _).mpr follows).isInfix
        · have absent : ∀ another ∈ table, ¬ another.code <+: mark :: decode [entity] rest := by
            intro another inside prefixed
            exact doubled ⟨another, inside,
              (code_prefix_marked separate marking inside rest).mp prefixed⟩
          rw [decode_moved absent, List.cons_inj_right]
          refine Iff.trans ih (forall₂_congr fun another inside => not_congr ?_)
          rw [code_infix_iff separate here here]
          refine (or_iff_right fun prefixed => doubled ⟨another, inside, ?_⟩).symm
          exact (List.prefix_append_right_inj _).mp prefixed
      · have inside : other ∈ table := (List.mem_cons.mp member).resolve_left same
        rw [decode_pass separate member same, decode_found later inside, List.cons_inj_right]
        refine Iff.trans ih (forall₂_congr fun another _ => not_congr ?_)
        rw [code_infix_iff separate here member]
        refine (or_iff_right fun prefixed => same ?_).symm
        exact separate.unique member here (List.prefix_append _ _)
          ((List.prefix_append _ _).trans prefixed)
  | moved first rest absent ih =>
      have absentLater : ∀ other ∈ table, ¬ other.code <+: first :: decode [entity] rest := by
        intro other inside
        have member := List.mem_cons_of_mem entity inside
        rw [code_prefix_decode separate member (marking ▸ later.single other inside)]
        exact absent other member
      rw [decode_moved absent, decode_first_moved absent, decode_moved absentLater,
        List.cons_inj_right]
      refine Iff.trans ih (forall₂_congr fun another _ => not_congr ?_)
      rw [List.infix_cons_iff]
      exact (or_iff_right fun prefixed =>
        absent entity here ((List.prefix_append _ _).trans prefixed)).symm

end Marking

/-- Each element is kept or replaced by its code, and the mark is never kept. -/
def Escapes (mark : α) (table : List (Entity α)) (escape : α → List α) : Prop :=
  ∀ element, (element ≠ mark ∧ escape element = [element]) ∨
    ∃ entity ∈ table, escape element = entity.code ∧ entity.element = element

section Escape
variable {mark : α} {table : List (Entity α)} {escape : α → List α} (separate : Separate mark table)
  (escapes : Escapes mark table escape)
include separate escapes

/-- Decoding undoes the escaping of every element. -/
theorem decode_flatMap (text : List α) : decode table (text.flatMap escape) = text := by
  induction text with
  | nil => rfl
  | cons element rest ih =>
      rw [List.flatMap_cons]
      rcases escapes element with ⟨different, kept⟩ | ⟨entity, member, escaped, stands⟩
      · rw [kept, List.singleton_append, decode_moved fun entity member =>
          separate.not_prefix_of_ne member different _, ih]
      · rw [escaped, decode_found separate member, stands, ih]

omit [DecidableEq α] in
/-- What is kept by the escaping begins the escaped text where it begins the text. -/
theorem prefix_flatMap {part : List α}
    (kept : ∀ element ∈ part, escape element = [element] ∧ element ≠ mark)
    (text : List α) : part <+: text.flatMap escape ↔ part <+: text := by
  induction part generalizing text with
  | nil => exact iff_of_true List.nil_prefix List.nil_prefix
  | cons first part ih =>
      obtain ⟨⟨same, different⟩, others⟩ := List.forall_mem_cons.mp kept
      cases text with
      | nil => rfl
      | cons element rest =>
          rw [List.flatMap_cons, List.cons_prefix_cons]
          rcases escapes element with ⟨-, raw⟩ | ⟨entity, member, escaped, -⟩
          · rw [raw, List.singleton_append, List.cons_prefix_cons, ih others]
          · obtain ⟨body, code, -⟩ := separate.code_eq member
            rw [escaped, code, List.cons_append, List.cons_prefix_cons]
            refine iff_of_false (fun here => different here.1) fun here => different ?_
            have codes := (here.1 ▸ same).symm.trans (escaped.trans code)
            exact here.1.trans (List.cons.inj codes).1

omit [DecidableEq α] in
/-- The code of the mark is followed by something in the escaped text
where the mark is in the text. -/
theorem infix_flatMap {entity : Entity α} (member : entity ∈ table)
    (marks : escape mark = entity.code) {part : List α}
    (kept : ∀ element ∈ part, escape element = [element] ∧ element ≠ mark) (text : List α) :
    entity.code ++ part <:+: text.flatMap escape ↔ mark :: part <:+: text := by
  obtain ⟨body, code, -⟩ := separate.code_eq member
  have standing : entity.element = mark := by
    rcases escapes mark with ⟨different, -⟩ | ⟨other, others, escaped, stands⟩
    · exact absurd rfl different
    · rw [separate.apart entity member other others (by rw [← marks, escaped]), stands]
  induction text with
  | nil =>
      rw [List.flatMap_nil, List.infix_nil, List.infix_nil, code]
      exact iff_of_false (List.cons_ne_nil _ _) (List.cons_ne_nil _ _)
  | cons element rest ih =>
      have later : entity.code ++ part <:+: rest.flatMap escape ↔ mark :: part <:+: rest := ih
      rw [List.flatMap_cons, List.infix_cons_iff, ← later]
      by_cases marked : element = mark
      · rw [marked, marks, code_infix_iff separate member member, List.prefix_append_right_inj,
          List.cons_prefix_cons, prefix_flatMap separate escapes kept, and_iff_right rfl]
      · rw [or_iff_right fun here => marked (List.cons_prefix_cons.mp here).1.symm]
        rcases escapes element with ⟨-, raw⟩ | ⟨other, others, escaped, stands⟩
        · rw [raw, List.singleton_append, List.infix_cons_iff]
          refine or_iff_right fun here => marked ?_
          rw [code] at here
          exact (List.cons_prefix_cons.mp here).1.symm
        · rw [escaped, code_infix_iff separate member others]
          refine or_iff_right fun here => marked ?_
          have same :=
            separate.unique member others ((List.prefix_append _ _).trans here)
              (List.prefix_append _ _)
          rw [← stands, ← same, standing]

end Escape

end Entities
