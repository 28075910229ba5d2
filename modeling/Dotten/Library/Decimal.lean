/-
Module: Dotten.Library.Decimal
Layer: Library
Purpose: Decimal numerals as lists of digits, the most significant first, and
  the left-to-right reading of them.
Main exports: decimalDigits, ofDecimalDigits, ofDecimalDigits_decimalDigits
-/
import Mathlib.Data.Nat.Digits.Lemmas

namespace Dotten.Library

/-- The digits of a number without leading zeros; zero has one digit. -/
def decimalDigits (n : Nat) : List Nat :=
  if n = 0 then [0] else (Nat.digits 10 n).reverse

/-- The number that a loop `value = 10 * value + digit` reads. -/
def ofDecimalDigits (digits : List Nat) : Nat :=
  digits.foldl (fun value digit => 10 * value + digit) 0

theorem decimalDigits_pos {n : Nat} (positive : n ≠ 0) :
    decimalDigits n = (Nat.digits 10 n).reverse :=
  if_neg positive

theorem ofDecimalDigits_eq_ofDigits (digits : List Nat) :
    ofDecimalDigits digits = Nat.ofDigits 10 digits.reverse := by
  rw [ofDecimalDigits, Nat.ofDigits_eq_foldr, List.foldr_reverse]
  congr 1
  funext value digit
  rw [Nat.cast_id, Nat.add_comm]

/-- Reading a numeral gives the number back. -/
theorem ofDecimalDigits_decimalDigits (n : Nat) : ofDecimalDigits (decimalDigits n) = n := by
  cases n with
  | zero => rfl
  | succ n =>
      rw [decimalDigits_pos (Nat.succ_ne_zero n), ofDecimalDigits_eq_ofDigits,
        List.reverse_reverse, Nat.ofDigits_digits]

theorem decimalDigits_lt {n digit : Nat} (member : digit ∈ decimalDigits n) : digit < 10 := by
  cases n with
  | zero =>
      cases List.mem_singleton.mp member
      decide
  | succ n =>
      rw [decimalDigits_pos (Nat.succ_ne_zero n), List.mem_reverse] at member
      exact Nat.digits_lt_base (by decide) member

/-- A numeral has a first digit, and it is not zero unless the number is. -/
theorem exists_decimalDigits_cons {n : Nat} (positive : n ≠ 0) :
    ∃ first rest, decimalDigits n = first :: rest ∧ first ≠ 0 := by
  have nonempty : Nat.digits 10 n ≠ [] := Nat.digits_ne_nil_iff_ne_zero.mpr positive
  refine ⟨(Nat.digits 10 n).getLast nonempty, (Nat.digits 10 n).dropLast.reverse, ?_,
    Nat.getLast_digit_ne_zero 10 positive⟩
  rw [decimalDigits_pos positive]
  have split := congrArg List.reverse (List.dropLast_append_getLast nonempty)
  rw [List.reverse_append, List.reverse_singleton] at split
  exact split.symm

theorem decimalDigits_ne_nil (n : Nat) : decimalDigits n ≠ [] := by
  intro empty
  cases n with
  | zero => cases empty
  | succ n =>
      obtain ⟨first, rest, digits, -⟩ := exists_decimalDigits_cons (Nat.succ_ne_zero n)
      rw [digits] at empty
      cases empty

/-- The numerals of the numbers below a power of ten are short. -/
theorem length_decimalDigits_le {n k : Nat} (small : n < 10 ^ k) (positive : 0 < k) :
    (decimalDigits n).length ≤ k := by
  cases n with
  | zero => exact positive
  | succ n =>
      rw [decimalDigits_pos (Nat.succ_ne_zero n), List.length_reverse]
      exact (Nat.digits_length_le_iff (by decide) _).mpr small

end Dotten.Library
