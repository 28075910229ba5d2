/-
Module: Dotten.Library.DoublingLoop
Layer: Library
Purpose: The loop that doubles a word until it is large enough, in words of any
  width, where doubling loses the highest bit: when it ends, and with what.
Main exports: doublingLoop, doublingLoop_ge, doublingLoop_shift,
  doublingLoop_ends_iff, half_double, exists_shift_of_half, shift_of_power_le,
  shift_of_power, shift_lt_width
-/
import Mathlib.Algebra.Ring.Nat
import Mathlib.Tactic.Common

namespace Dotten.Library

/-- `while (value < needed) value *= 2` in words of `width` bits, or `none` when
it is not over after the given number of rounds. -/
def doublingLoop (width needed : Nat) : Nat → Nat → Option Nat
  | 0, value => if value < needed then none else some value
  | rounds + 1, value =>
      if value < needed then doublingLoop width needed rounds (value * 2 % 2 ^ width)
      else some value

/-- A word shifted up by `k` bits. -/
def shifted (width value k : Nat) : Nat := value * 2 ^ k % 2 ^ width

variable {width needed value result : Nat}

theorem shifted_zero (small : value < 2 ^ width) : shifted width value 0 = value := by
  rw [shifted, Nat.pow_zero, Nat.mul_one, Nat.mod_eq_of_lt small]

theorem shifted_lt (k : Nat) : shifted width value k < 2 ^ width :=
  Nat.mod_lt _ (Nat.two_pow_pos width)

theorem shifted_shifted (j k : Nat) :
    shifted width (shifted width value j) k = shifted width value (j + k) := by
  rw [shifted, shifted, shifted, Nat.mod_mul_mod, Nat.pow_add, Nat.mul_assoc]

/-- Doubling shifts by one bit. -/
theorem double_eq_shifted : value * 2 % 2 ^ width = shifted width value 1 := by
  rw [shifted, Nat.pow_one]

/-- Doubling once more shifts by one bit more. -/
theorem shifted_double (k : Nat) :
    shifted width (value * 2 % 2 ^ width) k = shifted width value (k + 1) := by
  rw [double_eq_shifted, shifted_shifted, Nat.add_comm]

theorem doublingLoop_ge :
    ∀ {rounds value : Nat}, doublingLoop width needed rounds value = some result →
      needed ≤ result := by
  intro rounds
  induction rounds with
  | zero =>
      intro value ends
      rw [doublingLoop] at ends
      split at ends
      · cases ends
      · cases ends
        omega
  | succ rounds inductionHypothesis =>
      intro value ends
      rw [doublingLoop] at ends
      split at ends
      · exact inductionHypothesis ends
      · cases ends
        omega

/-- What the loop ends with is the word that it started with, shifted. -/
theorem doublingLoop_shift :
    ∀ {rounds value : Nat}, value < 2 ^ width →
      doublingLoop width needed rounds value = some result →
      ∃ k, result = shifted width value k := by
  intro rounds
  induction rounds with
  | zero =>
      intro value small ends
      rw [doublingLoop] at ends
      split at ends
      · cases ends
      · cases ends
        exact ⟨0, (shifted_zero small).symm⟩
  | succ rounds inductionHypothesis =>
      intro value small ends
      rw [doublingLoop] at ends
      split at ends
      · obtain ⟨k, rfl⟩ := inductionHypothesis (Nat.mod_lt _ (Nat.two_pow_pos width)) ends
        exact ⟨k + 1, shifted_double k⟩
      · cases ends
        exact ⟨0, (shifted_zero small).symm⟩

/-- A shift that is large enough ends the loop. -/
theorem doublingLoop_of_shift (k : Nat) :
    ∀ {value : Nat}, value < 2 ^ width → needed ≤ shifted width value k →
      ∃ result, doublingLoop width needed k value = some result := by
  induction k with
  | zero =>
      intro value small enough
      rw [shifted_zero small] at enough
      exact ⟨value, if_neg (Nat.not_lt.mpr enough)⟩
  | succ k inductionHypothesis =>
      intro value small enough
      rw [← shifted_double] at enough
      rw [doublingLoop]
      split
      · exact inductionHypothesis (Nat.mod_lt _ (Nat.two_pow_pos width)) enough
      · exact ⟨value, rfl⟩

/-- The loop ends exactly when some shift of the word is large enough. -/
theorem doublingLoop_ends_iff (small : value < 2 ^ width) :
    (∃ rounds result, doublingLoop width needed rounds value = some result) ↔
      ∃ k, needed ≤ shifted width value k := by
  constructor
  · rintro ⟨rounds, result, ends⟩
    obtain ⟨k, rfl⟩ := doublingLoop_shift small ends
    exact ⟨k, doublingLoop_ge ends⟩
  · rintro ⟨k, enough⟩
    exact ⟨k, doublingLoop_of_shift k small enough⟩

/-- Twice the highest bit is the first number that a word does not hold. -/
theorem half_double (positive : 0 < width) : 2 ^ width = 2 ^ (width - 1) * 2 := by
  rw [← Nat.pow_succ]
  congr 1
  omega

/-- A shift by the whole word leaves nothing. -/
theorem shift_lt_width {k : Nat} (positive : 0 < needed)
    (enough : needed ≤ shifted width value k) : k < width := by
  by_contra beyond
  have divides : 2 ^ width ∣ value * 2 ^ k :=
    Nat.dvd_mul_left_of_dvd (Nat.pow_dvd_pow 2 (Nat.not_lt.mp beyond)) value
  rw [shifted, Nat.mod_eq_zero_of_dvd divides] at enough
  omega

/-- Any word but zero can be shifted until its highest bit is set. -/
theorem exists_shift_of_half (positive : 0 < value) (small : value < 2 ^ width) :
    ∃ k < width, 2 ^ (width - 1) ≤ shifted width value k := by
  have nonzero : value ≠ 0 := Nat.ne_of_gt positive
  have least : 2 ^ value.log2 ≤ value := Nat.log2_self_le nonzero
  have most : value < 2 ^ (value.log2 + 1) := Nat.lt_log2_self
  have bits : value.log2 < width := (Nat.log2_lt nonzero).mpr small
  have up : 2 ^ (width - 1) = 2 ^ value.log2 * 2 ^ (width - 1 - value.log2) := by
    rw [← Nat.pow_add]
    congr 1
    omega
  have top : 2 ^ width = 2 ^ (value.log2 + 1) * 2 ^ (width - 1 - value.log2) := by
    rw [← Nat.pow_add]
    congr 1
    omega
  refine ⟨width - 1 - value.log2, by omega, ?_⟩
  have below : value * 2 ^ (width - 1 - value.log2) < 2 ^ width := by
    rw [top]
    exact Nat.mul_lt_mul_of_pos_right most (Nat.two_pow_pos _)
  rw [shifted, Nat.mod_eq_of_lt below, up]
  exact Nat.mul_le_mul_right _ least

/-- A power of two never gets beyond the highest bit. -/
theorem shift_of_power_le (j k : Nat) : shifted width (2 ^ j) k ≤ 2 ^ (width - 1) := by
  rw [shifted, ← Nat.pow_add]
  rcases Nat.lt_or_ge (j + k) width with within | beyond
  · rw [Nat.mod_eq_of_lt (Nat.pow_lt_pow_right (by decide) within)]
    exact Nat.pow_le_pow_right (by decide) (by omega)
  · rw [Nat.mod_eq_zero_of_dvd (Nat.pow_dvd_pow 2 beyond)]
    exact Nat.zero_le _

/-- A power of two that is shifted and does not vanish is a power of two. -/
theorem shift_of_power {j k : Nat} (positive : 0 < shifted width (2 ^ j) k) :
    ∃ i < width, shifted width (2 ^ j) k = 2 ^ i := by
  rw [shifted, ← Nat.pow_add] at positive ⊢
  rcases Nat.lt_or_ge (j + k) width with within | beyond
  · exact ⟨j + k, within, Nat.mod_eq_of_lt (Nat.pow_lt_pow_right (by decide) within)⟩
  · rw [Nat.mod_eq_zero_of_dvd (Nat.pow_dvd_pow 2 beyond)] at positive
    exact absurd positive (Nat.lt_irrefl 0)

end Dotten.Library
