import Mathlib.Data.Nat.Bitwise

/-
This library describes blocks of network addresses and the tests of digits that decide whether an
address is in a block. An address is the number that its digits make.
-/

namespace Cidr

section Value
variable {digit : Nat}

/-- The number that digits make, the most significant first. -/
def value : List (BitVec digit) → Nat
  | [] => 0
  | first :: rest => first.toNat <<< (digit * rest.length) + value rest

theorem value_lt (digits : List (BitVec digit)) : value digits < 2 ^ (digit * digits.length) := by
  induction digits with
  | nil => rw [value, List.length_nil, Nat.mul_zero, Nat.pow_zero]; exact Nat.one_pos
  | cons first rest ih =>
      rw [value, Nat.shiftLeft_eq, List.length_cons, Nat.mul_succ, Nat.pow_add,
        Nat.mul_comm (2 ^ _)]
      exact Nat.lt_of_lt_of_le (Nat.add_lt_add_left ih _)
        (Nat.succ_mul _ _ ▸ Nat.mul_le_mul_right _ (Nat.succ_le_of_lt first.isLt))

/-- The first bits of the digits are the same. -/
def Agree : Nat → List (BitVec digit) → List (BitVec digit) → Prop
  | 0, _, _ => True
  | length, first :: rest, other :: others =>
      if digit ≤ length then first = other ∧ Agree (length - digit) rest others
      else first.toNat >>> (digit - length) = other.toNat >>> (digit - length)
  | _, _, _ => True

/-- A shift past the lower part is one of the upper part. -/
theorem add_shiftRight_of_le {high low size drop : Nat} (small : low < 2 ^ size)
    (past : size ≤ drop) :
    (high <<< size + low) >>> drop = high >>> (drop - size) := by
  have upper : (high <<< size + low) >>> size = high := by
    rw [Nat.shiftLeft_eq, Nat.shiftRight_eq_div_pow, Nat.add_comm,
      Nat.add_mul_div_right _ _ (Nat.two_pow_pos size),
      Nat.div_eq_of_lt small, Nat.zero_add]
  rw [← Nat.add_sub_of_le past, Nat.shiftRight_add, Nat.add_sub_cancel_left, upper]

/-- A shift within the lower part leaves the upper part whole. -/
theorem add_shiftRight_eq_iff {high low high' low' size drop : Nat} (small : low < 2 ^ size)
    (small' : low' < 2 ^ size)
    (within : drop ≤ size) : (high <<< size + low) >>> drop = (high' <<< size + low') >>> drop ↔
      high = high' ∧ low >>> drop = low' >>> drop := by
  have shifted (high low : Nat) : (high <<< size + low) >>> drop =
      high <<< (size - drop) + low >>> drop := by
    rw [Nat.shiftLeft_eq, Nat.shiftRight_eq_div_pow, ← Nat.pow_sub_mul_pow 2
      within, ← Nat.mul_assoc, Nat.add_comm, Nat.add_mul_div_right _ _ (Nat.two_pow_pos drop),
        Nat.add_comm, Nat.shiftLeft_eq, Nat.shiftRight_eq_div_pow]
  have below {low : Nat} (small : low < 2 ^ size) : low >>> drop < 2 ^ (size - drop) := by
    rw [Nat.shiftRight_eq_div_pow]
    exact Nat.div_lt_of_lt_mul (by rwa [Nat.mul_comm, Nat.pow_sub_mul_pow 2 within])
  constructor
  · intro equal
    rw [shifted, shifted] at equal
    have highs := congrArg (· >>> (size - drop)) equal
    simp only [add_shiftRight_of_le (below small) le_rfl,
      add_shiftRight_of_le (below small') le_rfl, Nat.sub_self,
      Nat.shiftRight_zero] at highs
    exact ⟨highs, Nat.add_left_cancel (highs ▸ equal)⟩
  · rintro ⟨rfl, lows⟩
    rw [shifted, shifted, lows]

/-- Addresses begin with the same bits if and only if their digits do. -/
theorem shiftRight_value_eq_iff {first second : List (BitVec digit)}
    (lengths : first.length = second.length)
    {length : Nat} (within : length ≤ digit * first.length) :
    value first >>> (digit * first.length - length) =
      value second >>> (digit * first.length - length) ↔
      Agree length first second := by
  induction first generalizing second length with
  | nil =>
      cases second with
      | nil => cases length <;> simp [Agree]
      | cons y others => cases lengths
  | cons x rest ih =>
      cases second with
      | nil => cases lengths
      | cons y others =>
          by_cases none : length = 0
          · rw [none, Nat.sub_zero, Agree, Nat.shiftRight_eq_zero _ _ (value_lt _),
              Nat.shiftRight_eq_zero _ _ (lengths ▸ value_lt _)]
            exact iff_true_intro rfl
          have same : rest.length = others.length := Nat.succ.inj lengths
          rw [List.length_cons, Nat.mul_succ] at within
          rw [value, value, List.length_cons, Nat.mul_succ, ← same, Agree.eq_2 _ _ _ _ _ none]
          split
          · next whole =>
              have drop : digit * rest.length + digit - length =
                digit * rest.length - (length - digit) := by omega
              rw [drop, add_shiftRight_eq_iff (value_lt rest) (same ▸ value_lt others)
                (Nat.sub_le _ _), ih same (by omega), BitVec.toNat_inj]
          · next part =>
              rw [add_shiftRight_of_le (value_lt rest) (by omega),
                add_shiftRight_of_le (same ▸ value_lt others) (by omega)]
              have drop : digit * rest.length + digit - length - digit * rest.length =
                digit - length := by omega
              rw [drop]

end Value

/-- The addresses of a number of bits that begin as the network does. -/
structure Block (width : Nat) where
  network : Nat
  length : Nat
  deriving DecidableEq, Repr

def Block.Contains {width : Nat} (block : Block width) (address : Nat) : Prop :=
  address >>> (width - block.length) = block.network >>> (width - block.length)

instance {width : Nat} (block : Block width) (address : Nat) : Decidable (block.Contains address) :=
  inferInstanceAs (Decidable (_ = _))

variable {w k : Nat}

/-- A mask of the leading bits clears the others. -/
theorem toNat_and_leading (x : BitVec w) :
    (x &&& BitVec.allOnes w <<< k).toNat = x.toNat >>> k <<< k := by
  refine Nat.eq_of_testBit_eq fun bit => ?_
  rw [BitVec.testBit_toNat, BitVec.getLsbD_and, BitVec.getLsbD_shiftLeft, BitVec.getLsbD_allOnes,
    Nat.testBit_shiftLeft, Nat.testBit_shiftRight, BitVec.testBit_toNat]
  by_cases leading : k ≤ bit
  · rw [Nat.add_sub_cancel' leading]
    by_cases inside : bit < w
    · simp [leading, inside, Nat.lt_of_le_of_lt (Nat.sub_le bit k) inside]
    · simp [BitVec.getLsbD_of_ge x bit (Nat.le_of_not_lt inside)]
  · simp [leading, Nat.lt_of_not_le leading]

/-- The masked test of a digit compares its leading bits. -/
theorem and_leading_eq_iff {x mask network : BitVec w} (leading : mask = BitVec.allOnes w <<< k)
    (cleared : network.toNat >>> k <<< k = network.toNat) :
    x &&& mask = network ↔ x.toNat >>> k = network.toNat >>> k := by
  rw [leading, ← BitVec.toNat_inj, toNat_and_leading]
  constructor
  · intro equal
    rw [← equal, Nat.shiftLeft_shiftRight]
  · intro equal
    rw [equal, cleared]

end Cidr
