import Mathlib.Data.List.Basic

/-
This library describes UTF-8 text that is stored as a list of bytes and may be torn at any byte.
-/

namespace Utf8

/-- The bytes of a text are the bytes of its characters in order. -/
def encode (text : List Char) : List UInt8 := text.flatMap String.utf8EncodeChar

/-- Decoding fails when the bytes are not the encoding of any text. -/
def decode (bytes : List UInt8) : Option (List Char) :=
  bytes.toByteArray.utf8Decode?.map Array.toList

/-- A byte index is a character boundary when it starts a character or ends the text. -/
def isCharBoundary : List Char → Nat → Bool
  | _, 0 => true
  | [], _ + 1 => false
  | char :: rest, index + 1 =>
      decide (char.utf8Size ≤ index + 1) && isCharBoundary rest (index + 1 - char.utf8Size)

@[simp] theorem encode_nil : encode [] = [] := rfl

@[simp] theorem encode_cons (char : Char) (text : List Char) :
    encode (char :: text) = String.utf8EncodeChar char ++ encode text := rfl

@[simp] theorem encode_append (first second : List Char) :
    encode (first ++ second) = encode first ++ encode second := List.flatMap_append

/-- Decoding consumes one encoded character at a time. -/
theorem decode_char_append (char : Char) (bytes : List UInt8) :
    decode (String.utf8EncodeChar char ++ bytes) = (decode bytes).map (char :: ·) := by
  rw [decode, List.toByteArray_append, ← List.utf8Encode_singleton,
    ByteArray.utf8Decode?_utf8Encode_singleton_append]
  simp [decode, Option.map_map, Function.comp_def]

/-- Decoding consumes one encoded prefix at a time. -/
theorem decode_encode_append (text : List Char) (bytes : List UInt8) :
    decode (encode text ++ bytes) = (decode bytes).map (text ++ ·) := by
  induction text with
  | nil => simp
  | cons char text ih =>
      rw [encode_cons, List.append_assoc, decode_char_append, ih, Option.map_map]
      rfl

@[simp] theorem decode_nil : decode [] = some [] := by simp [decode]

/-- Decoding inverts the encoding. -/
@[simp] theorem decode_encode (text : List Char) : decode (encode text) = some text := by
  simpa using decode_encode_append text []

/-- Only an encoding decodes. -/
theorem decode_eq_some {bytes : List UInt8} {text : List Char}
    (decoded : decode bytes = some text) :
    bytes = encode text := by
  obtain ⟨chars, found, rfl⟩ := Option.map_eq_some_iff.mp decoded
  have valid : bytes.toByteArray.utf8Decode?.isSome := by simp [found]
  have same := @ByteArray.utf8Encode_get_utf8Decode? _ valid
  simp only [found, Option.get_some] at same
  exact (List.toByteArray_inj.mp same).symm

/-- The first byte of an encoding can start a character. -/
theorem encode_getElem_zero {text : List Char} {byte : UInt8}
    (first : (encode text)[0]? = some byte) :
    byte.IsUTF8FirstByte := by
  cases text with
  | nil => simp at first
  | cons char text =>
      have inside : 0 < (String.utf8EncodeChar char).length := by simp [char.utf8Size_pos]
      rw [encode_cons, List.getElem?_append_left inside, List.getElem?_eq_getElem inside,
        Option.some.injEq] at first
      rw [← first]
      exact UInt8.isUTF8FirstByte_getElem_zero_utf8EncodeChar

/-- A later byte of a character cannot start a character. -/
theorem utf8EncodeChar_getElem_pos {char : Char} {index : Nat} {byte : UInt8} (positive : 0 < index)
    (found : (String.utf8EncodeChar char)[index]? = some byte) : ¬ byte.IsUTF8FirstByte := by
  obtain ⟨inside, rfl⟩ := List.getElem?_eq_some_iff.mp found
  rw [UInt8.isUTF8FirstByte_getElem_utf8EncodeChar]
  omega

/-- A character that lost its last bytes does not decode, whatever text follows it. -/
theorem decode_torn_char (char : Char) (index : Nat) (positive : 0 < index)
    (short : index < char.utf8Size)
    (after : List Char) :
    decode ((String.utf8EncodeChar char).take index ++ encode after) = none := by
  rw [Option.eq_none_iff_forall_ne_some]
  intro text decoded
  have same := decode_eq_some decoded
  have taken : ((String.utf8EncodeChar char).take index).length = index := by simp; omega
  cases text with
  | nil =>
      have lengths := congrArg List.length same
      simp only [List.length_append, taken, encode_nil, List.length_nil] at lengths
      omega
  | cons head rest =>
      rw [encode_cons] at same
      have size : (String.utf8EncodeChar head).length = head.utf8Size :=
        String.length_utf8EncodeChar head
      have headPositive := head.utf8Size_pos
      rcases Nat.lt_trichotomy head.utf8Size index with shorter | equal | longer
      · -- The torn character has a continuation byte where the decoded text starts a character.
        have byte : ((String.utf8EncodeChar char).take index)[head.utf8Size]? =
            (String.utf8EncodeChar char)[head.utf8Size]? := by
          rw [List.getElem?_take_of_lt shorter]
        have inside : head.utf8Size < (String.utf8EncodeChar char).length := by simp; omega
        have here := congrArg (fun bytes => bytes[head.utf8Size]?) same
        rw [List.getElem?_append_left (by omega), byte, List.getElem?_append_right (by omega), size,
          Nat.sub_self, List.getElem?_eq_getElem inside] at here
        exact utf8EncodeChar_getElem_pos headPositive (List.getElem?_eq_getElem inside)
          (encode_getElem_zero here.symm)
      · -- The decoded text would hold a proper prefix of the torn character.
        have prefixes := List.append_inj same (by rw [taken, size, equal])
        have whole : String.utf8EncodeChar char =
            String.utf8EncodeChar head ++ (String.utf8EncodeChar char).drop index := by
          rw [← prefixes.1, List.take_append_drop]
        have alone := decode_encode [char]
        rw [encode_cons, encode_nil, List.append_nil, whole, decode_char_append] at alone
        obtain ⟨tail, tailDecoded, tailSame⟩ := Option.map_eq_some_iff.mp alone
        have empty : tail = [] := (List.cons.inj tailSame).2
        rw [empty] at tailDecoded
        have lengths := congrArg List.length (decode_eq_some tailDecoded)
        simp only [List.length_drop, String.length_utf8EncodeChar, encode_nil,
          List.length_nil] at lengths
        omega
      · -- The decoded text has a continuation byte where the next text starts.
        have here := congrArg (fun bytes => bytes[index]?) same
        rw [List.getElem?_append_right (by omega), taken, Nat.sub_self,
          List.getElem?_append_left (by omega)] at here
        have inside : index < (String.utf8EncodeChar head).length := by omega
        rw [List.getElem?_eq_getElem inside] at here
        exact utf8EncodeChar_getElem_pos positive (List.getElem?_eq_getElem inside)
          (encode_getElem_zero here)

/-- A text cut at a character boundary is the encoding of a prefix. -/
theorem take_encode_of_boundary {text : List Char} {index : Nat}
    (boundary : isCharBoundary text index) :
    ∃ kept lost, text = kept ++ lost ∧ (encode text).take index = encode kept ∧
      (encode kept).length = index := by
  induction text generalizing index with
  | nil =>
      cases index with
      | zero => exact ⟨[], [], rfl, rfl, rfl⟩
      | succ index => simp [isCharBoundary] at boundary
  | cons char text ih =>
      cases index with
      | zero => exact ⟨[], char :: text, rfl, rfl, rfl⟩
      | succ index =>
          simp only [isCharBoundary, Bool.and_eq_true, decide_eq_true_eq] at boundary
          obtain ⟨kept, lost, rfl, same, length⟩ := ih boundary.2
          refine ⟨char :: kept, lost, rfl, ?_, ?_⟩
          · rw [encode_cons, List.take_append, String.length_utf8EncodeChar, same,
              List.take_of_length_le (by simpa using boundary.1), encode_cons]
          · simp only [encode_cons, List.length_append, String.length_utf8EncodeChar, length]
            omega

theorem encode_length_pos {text : List Char} (nonempty : text ≠ []) : 0 < (encode text).length := by
  cases text with
  | nil => exact absurd rfl nonempty
  | cons char text =>
      have positive := char.utf8Size_pos
      simp only [encode_cons, List.length_append, String.length_utf8EncodeChar]
      omega

/-- The start of a text is the whole text when it has as many bytes. -/
theorem eq_iff_length_le {part text : List Char} (start : part <+: text) :
    part = text ↔ (encode text).length ≤ (encode part).length := by
  obtain ⟨more, rfl⟩ := start
  rw [encode_append, List.length_append]
  constructor
  · intro same
    simp [List.self_eq_append_right.mp same]
  · intro short
    by_contra different
    have nonempty : more ≠ [] := by
      rintro rfl
      simp at different
    have positive := encode_length_pos nonempty
    omega

/-- The end of a text is a character boundary. -/
theorem isCharBoundary_length (text : List Char) : isCharBoundary text (encode text).length := by
  induction text with
  | nil => rfl
  | cons char text ih =>
      obtain ⟨size, same⟩ :=
        Nat.exists_eq_add_one.mpr (encode_length_pos (List.cons_ne_nil char text))
      have total : char.utf8Size + (encode text).length = size + 1 := by
        rw [← same, encode_cons, List.length_append, String.length_utf8EncodeChar]
      rw [same, isCharBoundary, show size + 1 - char.utf8Size = (encode text).length by omega, ih,
        Bool.and_true, decide_eq_true_eq]
      omega

/-- A text cut inside a character does not decode, whatever text follows the cut. -/
theorem decode_torn {text : List Char} {index : Nat} (inside : index ≤ (encode text).length)
    (torn : isCharBoundary text index = false) (after : List Char) :
    decode ((encode text).take index ++ encode after) = none := by
  induction text generalizing index with
  | nil => cases index <;> simp_all [isCharBoundary]
  | cons char text ih =>
      cases index with
      | zero => simp [isCharBoundary] at torn
      | succ index =>
          by_cases whole : char.utf8Size ≤ index + 1
          · simp only [isCharBoundary, whole, decide_true, Bool.true_and] at torn
            rw [encode_cons, List.take_append, String.length_utf8EncodeChar,
              List.take_of_length_le (by simpa using whole), List.append_assoc, decode_char_append,
              ih (by simp at inside; omega) torn]
            rfl
          · rw [encode_cons, List.take_append_of_le_length (by simp; omega)]
            exact decode_torn_char char (index + 1) (by omega) (by omega) after

section Lossy

/-- The character that stands for bytes that encode none. -/
def replacement : Char := Char.ofNat 0xFFFD

/-- The ranges of the bytes that follow the first byte of a character, if it is one. -/
def followers (first : UInt8) : Option (List (UInt8 × UInt8)) :=
  if first ≤ 0x7F then some []
  else if first < 0xC2 then none
  else if first ≤ 0xDF then some [(0x80, 0xBF)]
  else if first = 0xE0 then some [(0xA0, 0xBF), (0x80, 0xBF)]
  else if first = 0xED then some [(0x80, 0x9F), (0x80, 0xBF)]
  else if first ≤ 0xEF then some [(0x80, 0xBF), (0x80, 0xBF)]
  else if first = 0xF0 then some [(0x90, 0xBF), (0x80, 0xBF), (0x80, 0xBF)]
  else if first ≤ 0xF3 then some [(0x80, 0xBF), (0x80, 0xBF), (0x80, 0xBF)]
  else if first = 0xF4 then some [(0x80, 0x8F), (0x80, 0xBF), (0x80, 0xBF)]
  else none

/-- How many bytes in a row lie in their ranges. -/
def matching : List (UInt8 × UInt8) → List UInt8 → Nat
  | (low, high) :: ranges, byte :: rest => if low ≤ byte ∧ byte ≤ high then
      matching ranges rest + 1 else 0
  | _, _ => 0

/-- The code point of a first byte and the bytes that follow it. -/
def codePoint (first : UInt8) (rest : List UInt8) : Nat :=
  let bits :=
    match rest.length with
    | 0 => first.toNat
    | 1 => first.toNat % 32
    | 2 => first.toNat % 16
    | _ => first.toNat % 8
  rest.foldl (fun point byte => point * 64 + byte.toNat % 64) bits

/-- The character that the bytes begin with, and how many bytes after the first belong to it. Where
no character is complete, the longest part that could begin one is replaced. -/
def lossyChar (first : UInt8) (rest : List UInt8) : Char × Nat :=
  match followers first with
  | none => (replacement, 0)
  | some ranges =>
      let count := matching ranges rest
      (if count = ranges.length then Char.ofNat (codePoint first (rest.take count))
        else replacement, count)

def decodeLossyFrom : Nat → List UInt8 → List Char
  | _, [] => []
  | skipped + 1, _ :: rest => decodeLossyFrom skipped rest
  | 0, first :: rest => (lossyChar first rest).1 :: decodeLossyFrom (lossyChar first rest).2 rest

/-- Decoding that never fails: what is no text becomes replacement characters. -/
def decodeLossy (bytes : List UInt8) : List Char := decodeLossyFrom 0 bytes

/-- A torn character is one replacement, and a complete one after it is kept. -/
example : decodeLossy [0x61, 0xE6, 0x97, 0xE6, 0x97, 0xA5] = ['a', replacement, '日'] := by decide

end Lossy

end Utf8
