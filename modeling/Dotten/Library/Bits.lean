/-
Module: Dotten.Library.Bits
Layer: Library
Purpose: Shifts and masks as arithmetic.
Main exports: or_low_bits, and_two_bits, and_four_bits, and_six_bits
-/
import Mathlib.Data.Nat.Bitwise

namespace Dotten.Library

/-- Bits put in below a shifted value. -/
theorem or_low_bits (mark bits : Nat) {value : Nat} (small : value < 2 ^ bits) :
    mark <<< bits ||| value = value + mark * 2 ^ bits := by
  rw [← Nat.shiftLeft_add_eq_or_of_lt small, Nat.shiftLeft_eq, Nat.add_comm]

theorem and_two_bits (value : Nat) : value &&& 0x3 = value % 4 :=
  Nat.and_two_pow_sub_one_eq_mod value 2

theorem and_four_bits (value : Nat) : value &&& 0xF = value % 16 :=
  Nat.and_two_pow_sub_one_eq_mod value 4

theorem and_six_bits (value : Nat) : value &&& 0x3F = value % 64 :=
  Nat.and_two_pow_sub_one_eq_mod value 6

end Dotten.Library
