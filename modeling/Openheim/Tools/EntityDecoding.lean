import Openheim.Library.Entities
import Openheim.Tools.EditFile

/-
This file follows `decode_entities` of `src/tools/web_fetch.rs` and shows on which texts it decodes
every entity once.
-/

namespace Openheim.Tools

open Entities

def nbsp : Entity Char := ⟨"&nbsp;".toList, ' '⟩

def amp : Entity Char := ⟨"&amp;".toList, '&'⟩

/-- The entities that are decoded after the ampersand. -/
def laterEntities : List (Entity Char) :=
  [⟨"&quot;".toList, '\"'⟩, ⟨"&apos;".toList, '\''⟩, ⟨"&#39;".toList, '\''⟩, ⟨"&lt;".toList, '<'⟩,
    ⟨"&gt;".toList, '>'⟩]

/-- The entities in the order in which they are decoded. -/
def entities : List (Entity Char) := nbsp :: amp :: laterEntities

/-- Decodes a small set of entities, one after the other. -/
def decodeEntities (text : List Char) : List Char :=
  entities.foldl (fun text entity => replace text entity.code [entity.element]) text

/-- The escaping of a character, with either of the two entities of the apostrophe. -/
def escapeChar (numeric : Bool) (char : Char) : List Char :=
  if char = '&' then "&amp;".toList
  else if char = '<' then "&lt;".toList
  else if char = '>' then "&gt;".toList
  else if char = '\"' then "&quot;".toList
  else if char = '\'' then (if numeric then "&#39;".toList else "&apos;".toList)
  else [char]

def escape (numeric : Bool) (text : List Char) : List Char := text.flatMap (escapeChar numeric)

theorem separate_entities : Separate '&' entities where
  marked := by decide
  single := by decide
  apart := by decide

theorem replace_eq_decode (text : List Char) (entity : Entity Char) :
    replace text entity.code [entity.element] = decode [entity] text := by
  have equal (skip : Nat) : replaceFrom entity.code [entity.element] skip text =
      decodeFrom [entity] skip text := by
    induction text generalizing skip with
    | nil => cases skip <;> rfl
    | cons first rest ih =>
        cases skip with
        | succ skip => exact ih skip
        | zero =>
            rw [replaceFrom, decodeFrom, List.find?_cons]
            cases entity.code.isPrefixOf (first :: rest) with
            | true => exact congrArg (entity.element :: ·) (ih _)
            | false => exact congrArg (first :: ·) (ih _)
  exact equal 0

/-- The entities after the ampersand could be decoded together. -/
theorem decodeEntities_eq (text : List Char) :
    decodeEntities text = decode laterEntities (decode [amp] (decode [nbsp] text)) := by
  have separate {table : List (Entity Char)} (subset : table ⊆ entities) : Separate '&' table :=
    separate_entities.of_subset subset
  rw [laterEntities, decode_cons (separate (by decide)) (by decide),
    decode_cons (separate (by decide)) (by decide), decode_cons (separate (by decide)) (by decide),
      decode_cons (separate (by decide)) (by decide)]
  simp only [decodeEntities, entities, laterEntities, List.foldl_cons, List.foldl_nil,
    replace_eq_decode]

theorem escapes_escapeChar (numeric : Bool) : Escapes '&' entities (escapeChar numeric) := by
  intro char
  unfold escapeChar
  split
  · next here => exact .inr ⟨amp, by decide, rfl, here.symm⟩
  · next different =>
    split
    · next here => exact .inr ⟨⟨"&lt;".toList, '<'⟩, by decide, rfl, here.symm⟩
    split
    · next here => exact .inr ⟨⟨"&gt;".toList, '>'⟩, by decide, rfl, here.symm⟩
    split
    · next here => exact .inr ⟨⟨"&quot;".toList, '\"'⟩, by decide, rfl, here.symm⟩
    split
    · next here =>
      cases numeric with
      | true => exact .inr ⟨⟨"&#39;".toList, '\''⟩, by decide, rfl, here.symm⟩
      | false => exact .inr ⟨⟨"&apos;".toList, '\''⟩, by decide, rfl, here.symm⟩
    · exact .inl ⟨different, rfl⟩

theorem escapeChar_of_ordinary (numeric : Bool) {char : Char}
    (ordinary : char ∉ ['&', '<', '>', '\"', '\'']) :
    escapeChar numeric char = [char] := by
  simp only [List.mem_cons, List.not_mem_nil, or_false, not_or] at ordinary
  obtain ⟨amp, lt, gt, quot, apos⟩ := ordinary
  rw [escapeChar, if_neg amp, if_neg lt, if_neg gt, if_neg quot, if_neg apos]

/-- Entities are decoded once unless an escaped ampersand makes one of the
entities that are decoded later. -/
theorem decodeEntities_eq_decode_iff (text : List Char) :
    decodeEntities text = decode entities text ↔ ∀ other ∈ laterEntities,
      ¬ amp.code ++ other.code.tail <:+: text := by
  have later : Separate '&' (amp :: laterEntities) := separate_entities.of_subset (by decide)
  rw [decodeEntities_eq, entities, decode_cons separate_entities (by decide),
    decode_cons_marking_iff later rfl (by decide)]
  refine forall₂_congr fun other member => not_congr ?_
  have parts : ∀ other ∈ laterEntities, '&' ∉ other.code.tail ∧
    ' ' ∉ amp.code ++ other.code.tail := by decide
  exact infix_decode_iff separate_entities (by decide) (by decide) (parts other member).1
    (parts other member).2 text

/-- Decoding undoes escaping if and only if the text has none of the
entities that are decoded later. -/
theorem decodeEntities_escape_iff (numeric : Bool) (text : List Char) :
    decodeEntities (escape numeric text) = text ↔ ∀ other ∈ laterEntities,
      ¬ other.code <:+: text := by
  have undone : decode entities (escape numeric text) = text :=
    decode_flatMap separate_entities (escapes_escapeChar numeric) text
  have kept : ∀ other ∈ laterEntities, ∀ char ∈ other.code.tail, escapeChar numeric char = [char] ∧
      char ≠ '&' := by
    have ordinary : ∀ other ∈ laterEntities, ∀ char ∈ other.code.tail,
        char ∉ ['&', '<', '>', '\"', '\''] := by
      simp [laterEntities]
    intro other member char inside
    have kept := ordinary other member char inside
    exact ⟨escapeChar_of_ordinary numeric kept, fun marker => kept (marker ▸ List.mem_cons_self)⟩
  have whole : ∀ other ∈ laterEntities, '&' :: other.code.tail = other.code := by decide
  have once := decodeEntities_eq_decode_iff (escape numeric text)
  rw [undone] at once
  refine once.trans (forall₂_congr fun other member => not_congr ?_)
  rw [escape, infix_flatMap separate_entities (escapes_escapeChar numeric) (by decide) rfl
    (kept other member), whole other member]

/-- Decoding undoes escaping, and decodes every entity once, on these texts only. -/
theorem decoding_iff (numeric : Bool) (text : List Char) :
    (decodeEntities (escape numeric text) = text ↔ ∀ other ∈ laterEntities,
        ¬ other.code <:+: text) ∧
    (decodeEntities text = decode entities text ↔
      ∀ other ∈ laterEntities, ¬ amp.code ++ other.code.tail <:+: text) :=
  ⟨decodeEntities_escape_iff numeric text, decodeEntities_eq_decode_iff text⟩

/-- A page that shows an entity shows the character. -/
theorem shown_entity_decoded : escape false "&lt;".toList = "&amp;lt;".toList ∧
    decodeEntities (escape false "&lt;".toList) = ['<'] ∧
      decodeEntities (escape false "&lt;".toList) ≠ "&lt;".toList := by decide

end Openheim.Tools
