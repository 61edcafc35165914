import Mathlib.Tactic.IntervalCases

/-
This library writes natural numbers with a fixed number of hexadecimal digits and reads them back.
-/

namespace Hex

/-- The lowercase digit of a value below sixteen. -/
def digit (value : Nat) : Char := "0123456789abcdef".toList.getD value '0'

/-- Both cases of a letter have the same value. -/
def value (char : Char) : Option Nat :=
  let index := "0123456789abcdef".toList.idxOf char.toLower
  if index < 16 then some index else none

/-- The most significant digit comes first. -/
def write : Nat → Nat → List Char
  | 0, _ => []
  | width + 1, number => write width (number / 16) ++ [digit (number % 16)]

/-- Reading continues a number whose first digits are known. -/
def readFrom (number : Nat) : List Char → Option Nat
  | [] => some number
  | char :: rest => (value char).bind fun low => readFrom (16 * number + low) rest

def read (text : List Char) : Option Nat := readFrom 0 text

theorem value_digit {low : Nat} (small : low < 16) : value (digit low) = some low := by
  interval_cases low <;> decide

@[simp] theorem write_length (width number : Nat) : (write width number).length = width := by
  induction width generalizing number with
  | zero => rfl
  | succ width ih => rw [write, List.length_append, ih, List.length_singleton]

theorem mem_write {width number : Nat} {char : Char} (member : char ∈ write width number) :
    ∃ low, low < 16 ∧ char = digit low := by
  induction width generalizing number with
  | zero => cases member
  | succ width ih =>
      rcases List.mem_append.mp member with high | last
      · exact ih high
      · exact ⟨_, Nat.mod_lt number (by decide), List.mem_singleton.mp last⟩

theorem readFrom_append (number : Nat) (first second : List Char) :
    readFrom number (first ++ second) = (readFrom number first).bind fun middle =>
      readFrom middle second := by
  induction first generalizing number with
  | nil => rfl
  | cons char first ih =>
      rw [List.cons_append, readFrom, readFrom]
      cases value char with
      | none => rfl
      | some low => exact ih _

theorem readFrom_write (prefix_ width number : Nat) (small : number < 16 ^ width) :
    readFrom prefix_ (write width number) = some (16 ^ width * prefix_ + number) := by
  induction width generalizing number with
  | zero =>
      have zero : number = 0 := by simpa using small
      simp [write, readFrom, zero]
  | succ width ih =>
      have high : number / 16 < 16 ^ width := by
        rw [Nat.div_lt_iff_lt_mul (by decide)]
        rwa [Nat.pow_succ] at small
      rw [write, readFrom_append, ih (number / 16) high, Option.bind_some, readFrom,
        value_digit (Nat.mod_lt number (by decide)), Option.bind_some, readFrom, Option.some.injEq,
          Nat.pow_succ]
      have split := Nat.div_add_mod number 16
      rw [Nat.mul_add, ← Nat.mul_assoc, Nat.mul_comm 16 (16 ^ width)]
      omega

/-- Reading inverts writing when the digits are enough for the number. -/
theorem read_write {width number : Nat} (small : number < 16 ^ width) :
    read (write width number) = some number := by
  rw [read, readFrom_write 0 width number small, Nat.mul_zero, Nat.zero_add]

end Hex
