import Openheim.Core.Error
import Openheim.Library.Hex

/-
This file describes the part of the `uuid` crate that the runtime uses: an id has many accepted
spellings.
-/

namespace Openheim

/-- The crate parses an id from text and writes one as text that parses to it again. -/
structure UuidCrate where
  parseStr : String → Option Uuid
  toText : Uuid → String
  parseStr_toText : ∀ id, parseStr (toText id) = some id

namespace Uuid

/-- The hyphens of the usual format follow 8, 12, 16 and 20 digits. -/
def hyphenate (digits : List Char) : List Char :=
  digits.take 8 ++ '-' :: ((digits.drop 8).take 4 ++ '-' :: ((digits.drop 12).take 4 ++
    '-' :: ((digits.drop 16).take 4 ++ '-' :: digits.drop 20)))

/-- A hyphenated text has its hyphens in the usual places and nowhere else to lose. -/
def dehyphenate (text : List Char) : Option (List Char) :=
  if text.length = 36 ∧ text[8]? = some '-' ∧ text[13]? = some '-' ∧ text[18]? = some '-' ∧
    text[23]? = some '-' then
    some (text.take 8 ++
      ((text.drop 9).take 4 ++ ((text.drop 14).take 4 ++ ((text.drop 19).take 4 ++ text.drop 24))))
  else none

def ofDigits (digits : List Char) : Option Uuid := (Hex.read digits).map (BitVec.ofNat 128)

/-- The accepted formats are simple, hyphenated, braced and as a URN. -/
def parseStr (text : String) : Option Uuid :=
  let chars := text.toList
  if chars.length = 32 then ofDigits chars
  else if chars.length = 36 then (dehyphenate chars).bind ofDigits
  else if chars.length = 38 ∧ chars.head? = some '\x7b' ∧ chars.getLast? = some '\x7d' then
    (dehyphenate (chars.drop 1).dropLast).bind ofDigits
  else if "urn:uuid:".toList <+: chars then (dehyphenate (chars.drop 9)).bind ofDigits
  else none

/-- An id is written hyphenated and in lower case. -/
def toText (id : Uuid) : String := String.ofList (hyphenate (Hex.write 32 id.toNat))

theorem toList_toText (id : Uuid) : id.toText.toList = hyphenate (Hex.write 32 id.toNat) :=
  String.toList_ofList

theorem hyphenate_length {digits : List Char} (whole : digits.length = 32) :
    (hyphenate digits).length = 36 := by
  simp [hyphenate, whole]

theorem dehyphenate_hyphenate {digits : List Char} (whole : digits.length = 32) :
    dehyphenate (hyphenate digits) = some digits := by
  have places : (hyphenate digits)[8]? = some '-' ∧ (hyphenate digits)[13]? = some '-' ∧
      (hyphenate digits)[18]? = some '-' ∧ (hyphenate digits)[23]? = some '-' := by
    simp [hyphenate, whole]
  rw [dehyphenate, if_pos ⟨hyphenate_length whole, places⟩, Option.some.injEq]
  have next : ∀ skip, (digits.drop skip).take 4 ++ digits.drop (skip + 4) = digits.drop skip := by
    intro skip
    have split := List.take_append_drop 4 (digits.drop skip)
    rwa [List.drop_drop] at split
  have groups : digits.take 8 ++ ((digits.drop 8).take 4 ++ ((digits.drop 12).take 4 ++
      ((digits.drop 16).take 4 ++ digits.drop 20))) = digits := by
    rw [next 16, next 12, next 8, List.take_append_drop]
  rw [← groups]
  simp [hyphenate, List.drop_append, List.drop_take, whole]

/-- An id is read back from its text. -/
theorem parseStr_toText (id : Uuid) : parseStr (toText id) = some id := by
  have whole : (Hex.write 32 id.toNat).length = 32 := Hex.write_length 32 id.toNat
  have small : id.toNat < 16 ^ 32 := by
    have bound := id.isLt
    omega
  rw [parseStr, toText, String.toList_ofList, hyphenate_length whole, if_neg (by decide),
    if_pos rfl, dehyphenate_hyphenate whole, Option.bind_some, ofDigits, Hex.read_write small,
    Option.map_some, BitVec.ofNat_toNat, BitVec.setWidth_eq]

/-- Different ids have different texts. -/
theorem toText_injective : Function.Injective toText := by
  intro first second same
  have read := parseStr_toText first
  rw [same, parseStr_toText] at read
  exact (Option.some.inj read).symm

/-- The crate as its documentation describes it. -/
def crate : UuidCrate := ⟨parseStr, toText, parseStr_toText⟩

end Uuid

end Openheim
