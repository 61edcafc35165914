import Openheim.Library.Utf8Prefix

/-
This library describes the positions in the bytes of UTF-8 text that stand between characters, and
how the nearest one is found from any position.
-/

namespace Utf8

/-- A byte that begins a character. -/
def isLeading (byte : UInt8) : Bool := byte < 0x80 || 0xC0 ≤ byte

/-- The position stands between two characters or at an end. -/
def isBoundary (bytes : List UInt8) (index : Nat) : Bool :=
  index = 0 || index = bytes.length || bytes[index]?.any isLeading

/-- The last boundary from a position in the text down. -/
def floorFrom (bytes : List UInt8) : Nat → Nat
  | 0 => 0
  | index + 1 => if bytes[index + 1]?.any isLeading then index + 1 else floorFrom bytes index

def floorBoundary (bytes : List UInt8) (index : Nat) : Nat :=
  if bytes.length ≤ index then bytes.length else floorFrom bytes index

/-- The first boundary from a position up. -/
def ceilBoundary (bytes : List UInt8) (index : Nat) : Nat :=
  if bytes.length ≤ index then bytes.length
  else index + ((bytes.drop index).takeWhile fun byte => !isLeading byte).length

section Bytes
variable {byte first : UInt8} {ranges : List (UInt8 × UInt8)}

theorem isLeading_iff : isLeading byte = true ↔ byte.toNat < 0x80 ∨ 0xC0 ≤ byte.toNat := by
  simp [isLeading, UInt8.lt_iff_toNat_lt, UInt8.le_iff_toNat_le]

/-- A first byte begins a character, and the bytes in the ranges after it do not. -/
theorem followers_leading (leads : followers first = some ranges) :
    isLeading first = true ∧ ∀ range ∈ ranges, 0x80 ≤ range.1.toNat ∧ range.2.toNat ≤ 0xBF := by
  have small : first ≤ 0x7F ↔ first.toNat ≤ 0x7F := UInt8.le_iff_toNat_le
  have large : first < 0xC2 ↔ first.toNat < 0xC2 := UInt8.lt_iff_toNat_lt
  rw [isLeading_iff]
  unfold followers at leads
  split at leads
  · next ascii =>
    cases leads
    exact ⟨.inl (Nat.lt_succ_of_le (small.mp ascii)), by simp⟩
  · split at leads
    · cases leads
    · next later =>
      have begins : ¬ first.toNat < 0xC2 := fun below => later (large.mpr below)
      refine ⟨.inr (by omega), ?_⟩
      split at leads
      · cases leads
        simp
      · split at leads
        · cases leads
          simp
        · split at leads
          · cases leads
            simp
          · split at leads
            · cases leads
              simp
            · split at leads
              · cases leads
                simp
              · split at leads
                · cases leads
                  simp
                · split at leads
                  · cases leads
                    simp
                  · cases leads

theorem exists_range {bytes : List UInt8} (inside : List.Forall₂ InRange ranges bytes) :
    ∀ byte ∈ bytes, ∃ range ∈ ranges, InRange range byte := by
  induction inside with
  | nil => exact fun _ absent => nomatch absent
  | cons here _ ih =>
      refine List.forall_mem_cons.mpr ⟨⟨_, List.mem_cons_self, here⟩, fun byte member => ?_⟩
      obtain ⟨range, among, within⟩ := ih byte member
      exact ⟨range, List.mem_cons_of_mem _ among, within⟩

/-- Of the bytes of a character only the first one begins it. -/
theorem utf8EncodeChar_leading (char : Char) :
    ∃ first rest, String.utf8EncodeChar char = first :: rest ∧
    isLeading first = true ∧ ∀ byte ∈ rest, isLeading byte = false := by
  obtain ⟨first, rest, ranges, split, leads, inside⟩ := followers_char char
  obtain ⟨begins, bounds⟩ := followers_leading leads
  refine ⟨first, rest, split, begins, fun byte member => ?_⟩
  obtain ⟨range, among, low, high⟩ := exists_range inside byte member
  obtain ⟨lower, upper⟩ := bounds range among
  rw [UInt8.le_iff_toNat_le] at low high
  rw [Bool.eq_false_iff, Ne, isLeading_iff]
  omega

end Bytes

section Positions
variable {before after : List Char} {char : Char} {bytes : List UInt8}

/-- What follows a text begins a character or ends. -/
theorem encode_head (text : List Char) : ∀ byte ∈ (encode text).head?, isLeading byte = true := by
  cases text with
  | nil => exact fun _ absent => nomatch absent
  | cons char rest =>
      obtain ⟨first, others, split, begins, -⟩ := utf8EncodeChar_leading char
      intro byte here
      rw [encode_cons, split] at here
      cases here
      exact begins

/-- The end of one text is a boundary when another text follows. -/
theorem isBoundary_encode (before after : List Char) :
    isBoundary (encode before ++ encode after) (encode before).length = true := by
  cases after with
  | nil => simp [isBoundary]
  | cons char rest =>
      obtain ⟨first, others, split, begins, -⟩ := utf8EncodeChar_leading char
      rw [encode_cons, split, isBoundary, List.getElem?_append_right (Nat.le_refl _), Nat.sub_self]
      simp [begins]

/-- From within a character the search goes down to its first byte. -/
theorem floorFrom_within {base offset : Nat} (starts : base = 0 ∨ bytes[base]?.any isLeading = true)
    (within : ∀ index, base < index → index ≤ base + offset → bytes[index]?.any isLeading = false) :
    floorFrom bytes (base + offset) = base := by
  induction offset with
  | zero =>
      cases base with
      | zero => rfl
      | succ base =>
        rw [Nat.add_zero, floorFrom, if_pos (starts.resolve_left (Nat.succ_ne_zero base))]
  | succ offset ih =>
      have inner := within (base + offset + 1) (by omega) (by omega)
      rw [← Nat.add_assoc, floorFrom, inner, if_neg Bool.false_ne_true]
      exact ih fun index above below => within index above (by omega)

/-- Just before a boundary lies the character before it. -/
theorem floorBoundary_before (before : List Char) (char : Char) (after : List UInt8) :
    floorBoundary (encode (before ++ [char]) ++ after) ((encode (before ++ [char])).length - 1) =
      (encode before).length := by
  obtain ⟨first, others, split, begins, inner⟩ := utf8EncodeChar_leading char
  have text : encode (before ++ [char]) = encode before ++ first :: others := by
    rw [encode_append, encode_cons, encode_nil, List.append_nil, split]
  have size : (encode before ++ first :: others).length - 1 =
      (encode before).length + others.length := by
    simp only [List.length_append, List.length_cons]
    omega
  have short : ¬ (encode before ++ first :: others ++ after).length ≤
      (encode before).length + others.length := by
    simp only [List.length_append, List.length_cons]
    omega
  rw [text, size, floorBoundary, if_neg short]
  refine floorFrom_within (.inr ?_) fun index above below => ?_
  · rw [List.append_assoc, List.getElem?_append_right (Nat.le_refl _), Nat.sub_self]
    exact begins
  · obtain ⟨offset, rfl⟩ := Nat.exists_eq_add_of_lt above
    have small : offset < others.length := by omega
    rw [List.append_assoc, List.getElem?_append_right (by omega), Nat.add_assoc,
      Nat.add_sub_cancel_left, List.cons_append, List.getElem?_cons_succ,
        List.getElem?_append_left small, List.getElem?_eq_getElem small]
    exact inner _ (List.getElem_mem small)

/-- Just after a boundary the character after it is passed. -/
theorem ceilBoundary_after (before : List Char) (char : Char) (after : List Char) :
    ceilBoundary (encode before ++ encode (char :: after)) ((encode before).length + 1) =
      (encode (before ++ [char])).length := by
  obtain ⟨first, others, split, -, inner⟩ := utf8EncodeChar_leading char
  have text : encode before ++ encode (char :: after) = (encode before ++ [first]) ++
      (others ++ encode after) := by
    rw [encode_cons, split, List.append_assoc]
    rfl
  have position : (encode before).length + 1 = (encode before ++ [first]).length := by simp
  have target : (encode (before ++ [char])).length =
      (encode before ++ [first]).length + others.length := by
    rw [encode_append, encode_cons, encode_nil, List.append_nil, split]
    simp only [List.length_append, List.length_cons, List.length_nil]
    omega
  have passed : (others ++ encode after).takeWhile (fun byte => !isLeading byte) = others := by
    rw [List.takeWhile_append_of_pos fun byte member => by rw [inner byte member]; rfl]
    have stop : (encode after).takeWhile (fun byte => !isLeading byte) = [] := by
      cases bytes : encode after with
      | nil => rfl
      | cons byte rest =>
          have begins := encode_head after byte (by rw [bytes]; rfl)
          rw [List.takeWhile_cons, begins]
          rfl
    rw [stop, List.append_nil]
  rw [ceilBoundary, text, position, target]
  split
  · next ends =>
    simp only [List.length_append] at ends ⊢
    omega
  · rw [List.drop_left, passed]

end Positions

end Utf8
