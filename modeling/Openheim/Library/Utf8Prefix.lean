import Mathlib.Data.List.Forall2
import Openheim.Library.Utf8

/-
This library describes where bytes stop being UTF-8 text, as when text is cut at any byte.
-/

namespace Utf8

def validUpToFrom : Nat → List UInt8 → Nat
  | _, [] => 0
  | skipped + 1, _ :: rest => validUpToFrom skipped rest + 1
  | 0, first :: rest =>
      match followers first with
      | none => 0
      | some ranges => if matching ranges rest = ranges.length then
          validUpToFrom ranges.length rest + 1 else 0

/-- The number of bytes of whole characters that the bytes begin with. -/
def validUpTo (bytes : List UInt8) : Nat := validUpToFrom 0 bytes

/-- The number of bytes that are no text after the valid ones, unless the end came
in the middle of a character. -/
def errorLen (bytes : List UInt8) : Option Nat :=
  match bytes.drop (validUpTo bytes) with
  | [] => none
  | first :: rest =>
      match followers first with
      | none => some 1
      | some ranges => if matching ranges rest = rest.length then none
          else some (matching ranges rest + 1)

/-- The characters at the front of a text whose bytes fit within a number of bytes. -/
def takeBytes : Nat → List Char → List Char
  | _, [] => []
  | size, char :: rest => if char.utf8Size ≤ size then
      char :: takeBytes (size - char.utf8Size) rest else []

/-- A text cut at any byte ends in whole characters or in a part of one. -/
example : validUpTo [0x61, 0xE6, 0x97] = 1 ∧ errorLen [0x61, 0xE6, 0x97] = none ∧
    errorLen [0x61, 0xE6, 0x61] = some 1 := by
  decide

/-- A byte in a range. -/
def InRange (range : UInt8 × UInt8) (byte : UInt8) : Prop := range.1 ≤ byte ∧ byte ≤ range.2

/-- Bytes that are all in their ranges match. -/
theorem matching_append {ranges : List (UInt8 × UInt8)} {bytes : List UInt8}
    (inside : List.Forall₂ InRange ranges bytes) (rest : List UInt8) :
    matching ranges (bytes ++ rest) = ranges.length := by
  induction inside with
  | nil => cases rest <;> rfl
  | cons here _ ih => rw [List.cons_append, matching, if_pos ⟨here.1, here.2⟩, ih, List.length_cons]

/-- The front of such bytes matches. -/
theorem matching_take {ranges : List (UInt8 × UInt8)} {bytes : List UInt8}
    (inside : List.Forall₂ InRange ranges bytes) (count : Nat) :
    matching ranges (bytes.take count) = (bytes.take count).length := by
  induction inside generalizing count with
  | nil => cases count <;> rfl
  | cons here _ ih =>
      cases count with
      | zero => rfl
      | succ count =>
        rw [List.take_succ_cons, matching, if_pos ⟨here.1, here.2⟩, ih, List.length_cons]

theorem toNat_ofNat_byte {value : Nat} (small : value < 256) : (UInt8.ofNat value).toNat = value :=
  UInt8.toNat_ofNat_of_lt' small

/-- A number between two others is a byte between theirs. -/
theorem inRange_ofNat (low high : Nat) {value : Nat} (fits : high < 256) (above : low ≤ value)
    (below : value ≤ high) :
    InRange (UInt8.ofNat low, UInt8.ofNat high) (UInt8.ofNat value) := by
  rw [InRange, UInt8.le_iff_toNat_le, UInt8.le_iff_toNat_le,
    toNat_ofNat_byte (by omega : low < 256), toNat_ofNat_byte (by omega : value < 256),
      toNat_ofNat_byte fits]
  exact ⟨above, below⟩

/-- A byte that follows the first one with no further restriction. -/
theorem continuation (value : Nat) : InRange (0x80, 0xBF) (UInt8.ofNat (value % 64 + 0x80)) :=
  inRange_ofNat 0x80 0xBF (by omega) (by omega) (by omega)

/-- The ranges that must follow a byte, by its value. -/
theorem followers_ofNat {value : Nat} (small : value < 256) :
    followers (UInt8.ofNat value) =
      if value ≤ 0x7F then some []
      else if value < 0xC2 then none
      else if value ≤ 0xDF then some [(0x80, 0xBF)]
      else if value = 0xE0 then some [(0xA0, 0xBF), (0x80, 0xBF)]
      else if value = 0xED then some [(0x80, 0x9F), (0x80, 0xBF)]
      else if value ≤ 0xEF then some [(0x80, 0xBF), (0x80, 0xBF)]
      else if value = 0xF0 then some [(0x90, 0xBF), (0x80, 0xBF), (0x80, 0xBF)]
      else if value ≤ 0xF3 then some [(0x80, 0xBF), (0x80, 0xBF), (0x80, 0xBF)]
      else if value = 0xF4 then some [(0x80, 0x8F), (0x80, 0xBF), (0x80, 0xBF)]
      else none := by
  simp only [followers, UInt8.le_iff_toNat_le, UInt8.lt_iff_toNat_lt, ← UInt8.toNat_inj,
    toNat_ofNat_byte small, UInt8.reduceToNat]

/-- The first byte of a character tells the ranges of the others. -/
theorem followers_char (char : Char) :
    ∃ first rest ranges, String.utf8EncodeChar char = first :: rest ∧
    followers first = some ranges ∧ List.Forall₂ InRange ranges rest := by
  have valid : char.val.toNat < 0xD800 ∨ 0xDFFF < char.val.toNat ∧
    char.val.toNat < 0x110000 := char.valid
  unfold String.utf8EncodeChar
  dsimp only
  generalize char.val.toNat = value at valid ⊢
  split
  · refine ⟨_, [], [], rfl, ?_, .nil⟩
    rw [followers_ofNat (by omega), if_pos (by omega)]
  · split
    · refine ⟨_, _, [(0x80, 0xBF)], rfl, ?_, .cons (continuation _) .nil⟩
      rw [followers_ofNat (by omega), if_neg (by omega), if_neg (by omega), if_pos (by omega)]
    · split
      · -- overlong forms and surrogates narrow the second byte
        by_cases overlong : value < 0x1000
        · refine ⟨_, _, [(0xA0, 0xBF), (0x80, 0xBF)], rfl, ?_,
            .cons (inRange_ofNat 0xA0 0xBF (by omega) (by omega) (by omega))
              (.cons (continuation _) .nil)⟩
          rw [followers_ofNat (by omega), if_neg (by omega), if_neg (by omega), if_neg (by omega),
            if_pos (by omega)]
        · by_cases surrogate : value / 0x1000 = 0xD
          · refine ⟨_, _, [(0x80, 0x9F), (0x80, 0xBF)], rfl, ?_,
              .cons (inRange_ofNat 0x80 0x9F (by omega) (by omega) (by omega))
                (.cons (continuation _) .nil)⟩
            rw [followers_ofNat (by omega), if_neg (by omega), if_neg (by omega), if_neg (by omega),
              if_neg (by omega), if_pos (by omega)]
          · refine ⟨_, _, [(0x80, 0xBF), (0x80, 0xBF)], rfl, ?_,
              .cons (continuation _) (.cons (continuation _) .nil)⟩
            rw [followers_ofNat (by omega), if_neg (by omega), if_neg (by omega), if_neg (by omega),
              if_neg (by omega), if_neg (by omega), if_pos (by omega)]
      · by_cases overlong : value < 0x40000
        · refine ⟨_, _, [(0x90, 0xBF), (0x80, 0xBF), (0x80, 0xBF)], rfl, ?_,
            .cons (inRange_ofNat 0x90 0xBF (by omega) (by omega) (by omega))
              (.cons (continuation _) (.cons (continuation _) .nil))⟩
          rw [followers_ofNat (by omega), if_neg (by omega), if_neg (by omega), if_neg (by omega),
            if_neg (by omega), if_neg (by omega), if_neg (by omega), if_pos (by omega)]
        · by_cases beyond : 0x100000 ≤ value
          · refine ⟨_, _, [(0x80, 0x8F), (0x80, 0xBF), (0x80, 0xBF)], rfl, ?_,
              .cons (inRange_ofNat 0x80 0x8F (by omega) (by omega) (by omega))
                (.cons (continuation _) (.cons (continuation _) .nil))⟩
            rw [followers_ofNat (by omega), if_neg (by omega), if_neg (by omega), if_neg (by omega),
              if_neg (by omega), if_neg (by omega), if_neg (by omega), if_neg (by omega),
              if_neg (by omega), if_pos (by omega)]
          · refine ⟨_, _, [(0x80, 0xBF), (0x80, 0xBF), (0x80, 0xBF)], rfl, ?_,
              .cons (continuation _) (.cons (continuation _) (.cons (continuation _) .nil))⟩
            rw [followers_ofNat (by omega), if_neg (by omega), if_neg (by omega), if_neg (by omega),
              if_neg (by omega), if_neg (by omega), if_neg (by omega), if_neg (by omega),
                if_pos (by omega)]

/-- What is valid is counted from where the check stands. -/
theorem validUpToFrom_append (skipped bytes : List UInt8) :
    validUpToFrom skipped.length (skipped ++ bytes) = skipped.length + validUpTo bytes := by
  induction skipped with
  | nil => rw [List.length_nil, List.nil_append, Nat.zero_add, validUpTo]
  | cons first rest ih =>
      rw [List.length_cons, List.cons_append, validUpToFrom, ih]
      omega

/-- A character in front is valid. -/
theorem validUpTo_char_append (char : Char) (bytes : List UInt8) :
    validUpTo (String.utf8EncodeChar char ++ bytes) = char.utf8Size + validUpTo bytes := by
  obtain ⟨first, rest, ranges, split, leads, inside⟩ := followers_char char
  have size : char.utf8Size = rest.length + 1 := by
    rw [← String.length_utf8EncodeChar, split, List.length_cons]
  rw [split, List.cons_append, validUpTo, validUpToFrom, leads]
  dsimp only
  rw [if_pos (matching_append inside bytes), inside.length_eq, validUpToFrom_append, size]
  omega

/-- An encoded text in front is valid. -/
theorem validUpTo_encode_append (text : List Char) (bytes : List UInt8) :
    validUpTo (encode text ++ bytes) = (encode text).length + validUpTo bytes := by
  induction text with
  | nil => rw [encode_nil, List.nil_append, List.length_nil, Nat.zero_add]
  | cons char text ih =>
      rw [encode_cons, List.append_assoc, validUpTo_char_append, ih, List.length_append,
        String.length_utf8EncodeChar]
      omega

/-- The bytes of a character without its last ones, or no bytes. -/
def Torn (bytes : List UInt8) : Prop :=
  ∃ char count, count < Char.utf8Size char ∧ bytes = (String.utf8EncodeChar char).take count

/-- A torn character is valid nowhere. -/
theorem Torn.validUpTo {bytes : List UInt8} (torn : Torn bytes) : validUpTo bytes = 0 := by
  obtain ⟨char, count, short, rfl⟩ := torn
  obtain ⟨first, rest, ranges, split, leads, inside⟩ := followers_char char
  have size : char.utf8Size = rest.length + 1 := by
    rw [← String.length_utf8EncodeChar, split, List.length_cons]
  rw [split]
  cases count with
  | zero => rfl
  | succ count =>
      rw [List.take_succ_cons, Utf8.validUpTo, validUpToFrom, leads]
      dsimp only
      rw [matching_take inside, inside.length_eq, List.length_take, if_neg (by omega)]

/-- A torn character at the end is an input that could go on. -/
theorem Torn.errorLen {bytes : List UInt8} (torn : Torn bytes) (text : List Char) :
    errorLen (encode text ++ bytes) = none := by
  rw [Utf8.errorLen, validUpTo_encode_append, torn.validUpTo, Nat.add_zero, List.drop_left]
  obtain ⟨char, count, short, rfl⟩ := torn
  obtain ⟨first, rest, ranges, split, leads, inside⟩ := followers_char char
  rw [split]
  cases count with
  | zero => rfl
  | succ count =>
      rw [List.take_succ_cons]
      dsimp only
      rw [leads]
      dsimp only
      rw [if_pos (matching_take inside count)]

/-- A torn character decodes only when no byte of it is left. -/
theorem Torn.decode {bytes : List UInt8} (torn : Torn bytes) {text : List Char}
    (decoded : decode bytes = some text) :
    text = [] := by
  obtain ⟨char, count, short, rfl⟩ := torn
  cases count with
  | zero => exact (Option.some.inj (decode_nil.symm.trans decoded)).symm
  | succ count =>
      have fails := decode_torn_char char (count + 1) (Nat.succ_pos count) short []
      rw [encode_nil, List.append_nil] at fails
      rw [fails] at decoded
      cases decoded

/-- A text cut at any byte is the characters that fit and a part of the next one. -/
theorem take_encode (size : Nat) (text : List Char) :
    ∃ torn, Torn torn ∧ (encode text).take size = encode (takeBytes size text) ++ torn := by
  induction text generalizing size with
  | nil => exact ⟨[], ⟨'a', 0, by decide, rfl⟩, by simp [takeBytes]⟩
  | cons char text ih =>
      rw [takeBytes, encode_cons]
      split
      · next fits =>
        obtain ⟨torn, isTorn, cut⟩ := ih (size - char.utf8Size)
        refine ⟨torn, isTorn, ?_⟩
        rw [List.take_append, String.length_utf8EncodeChar,
          List.take_of_length_le (by simpa using fits), cut,
          encode_cons, List.append_assoc]
      · next large =>
        refine ⟨_, ⟨char, size, Nat.not_le.mp large, rfl⟩, ?_⟩
        rw [List.take_append_of_le_length (by rw [String.length_utf8EncodeChar]; omega), encode_nil,
          List.nil_append]

/-- What is kept of a text is the front of it. -/
theorem takeBytes_prefix (size : Nat) (text : List Char) : takeBytes size text <+: text := by
  induction text generalizing size with
  | nil => exact List.prefix_rfl
  | cons char text ih =>
      rw [takeBytes]
      split
      · exact List.cons_prefix_cons.mpr ⟨rfl, ih _⟩
      · exact List.nil_prefix

/-- What is kept of a text fits. -/
theorem takeBytes_length (size : Nat) (text : List Char) :
    (encode (takeBytes size text)).length ≤ size := by
  obtain ⟨torn, _, cut⟩ := take_encode size text
  have whole := congrArg List.length cut
  rw [List.length_take, List.length_append] at whole
  omega

/-- What a cut text decodes to, as it is or up to its last whole character. -/
theorem decode_cut (size : Nat) (text : List Char) :
    (∀ read, decode ((encode text).take size) = some read → read = takeBytes size text) ∧
      errorLen ((encode text).take size) = none ∧
      decode (((encode text).take size).take (validUpTo ((encode text).take size))) =
        some (takeBytes size text) := by
  obtain ⟨torn, isTorn, cut⟩ := take_encode size text
  rw [cut]
  refine ⟨fun read decoded => ?_, isTorn.errorLen _, ?_⟩
  · rw [decode_encode_append] at decoded
    obtain ⟨rest, nothing, rfl⟩ := Option.map_eq_some_iff.mp decoded
    rw [isTorn.decode nothing, List.append_nil]
  · rw [validUpTo_encode_append, isTorn.validUpTo, Nat.add_zero, List.take_left, decode_encode]

/-- An ASCII byte stands for the character with its code and for no part of another. -/
theorem toNat_of_mem_ascii {char : Char} {byte : UInt8} (member : byte ∈ String.utf8EncodeChar char)
    (ascii : byte.toNat < 0x80) : byte.toNat = char.val.toNat := by
  have valid : char.val.toNat < 0xD800 ∨ 0xDFFF < char.val.toNat ∧
    char.val.toNat < 0x110000 := char.valid
  unfold String.utf8EncodeChar at member
  dsimp only at member
  generalize char.val.toNat = value at valid member ⊢
  have high {number : Nat} (above : 0x80 ≤ number) (small : number < 256)
      (same : byte = UInt8.ofNat number) :
      False := by
    rw [same, toNat_ofNat_byte small] at ascii
    omega
  split at member
  · rw [List.mem_singleton.mp member, toNat_ofNat_byte (by omega)]
  · split at member
    · simp only [List.mem_cons, List.not_mem_nil, or_false] at member
      rcases member with same | same
      · exact (high (by omega) (by omega) same).elim
      · exact (high (by omega) (by omega) same).elim
    · split at member
      · simp only [List.mem_cons, List.not_mem_nil, or_false] at member
        rcases member with same | same | same
        · exact (high (by omega) (by omega) same).elim
        · exact (high (by omega) (by omega) same).elim
        · exact (high (by omega) (by omega) same).elim
      · simp only [List.mem_cons, List.not_mem_nil, or_false] at member
        rcases member with same | same | same | same
        · exact (high (by omega) (by omega) same).elim
        · exact (high (by omega) (by omega) same).elim
        · exact (high (by omega) (by omega) same).elim
        · exact (high (by omega) (by omega) same).elim

end Utf8
