/-
Module: Dotten.Core.Printf
Layer: Core
Purpose: The conversions of <stdio.h> and <stdlib.h> that the library prints
  and reads numbers with.
Imports: Dotten.Core.Strtod, Dotten.Library.Decimal
Main exports: formatUnsigned, formatSigned, formatHex4, snprintf, atol, atoi,
  atol_formatSigned, atoi_formatSigned
-/
import Dotten.Core.Strtod
import Dotten.Library.Decimal

namespace Dotten

open Dotten.Library

/-- The character of a decimal digit. -/
def digitByte (digit : Nat) : Byte := UInt8.ofNat ('0'.toNat + digit)

/-- `"%lu"`. -/
def formatUnsigned (n : Nat) : Bytes := (decimalDigits n).map digitByte

/-- `"%d"` and `"%lld"`. -/
def formatSigned (n : Int) : Bytes :=
  if n < 0 then ascii '-' :: formatUnsigned n.natAbs else formatUnsigned n.natAbs

/-- The character of a hexadecimal digit, in lower case. -/
def hexByte (digit : Nat) : Byte :=
  if digit < 10 then digitByte digit else UInt8.ofNat ('a'.toNat + (digit - 10))

/-- `"%04x"` of a number that has no more than four digits. -/
def formatHex4 (n : Nat) : Bytes :=
  [hexByte (n / 4096 % 16), hexByte (n / 256 % 16), hexByte (n / 16 % 16), hexByte (n % 16)]

/-- What `snprintf` leaves in a buffer of the given size, up to the NUL. -/
def snprintf (size : Nat) (text : Bytes) : Bytes := text.take (size - 1)

/-- `isspace`. -/
def isSpace (b : Byte) : Bool := b = ascii ' ' || (9 ≤ b.toNat && b.toNat ≤ 13)

/-- The digits that a text starts with, as a number. -/
def leadingNumber (text : Bytes) : Nat :=
  ofDecimalDigits ((text.takeWhile isDigit).map fun b => b.toNat - '0'.toNat)

/-- `atol`: white space, a sign, digits.  Numbers that do not fit the type, where
C leaves the result open, are not cut. -/
def atol (text : Bytes) : Int :=
  match text.dropWhile isSpace with
  | [] => 0
  | b :: rest =>
      if b = ascii '-' then - (leadingNumber rest : Int)
      else if b = ascii '+' then leadingNumber rest
      else leadingNumber (b :: rest)

/-- `atoi`: the low 32 bits of what `strtol` reads, which stays within the 64-bit
`long` of LP64 platforms. -/
def atoi (text : Bytes) : Int :=
  (max (-2 ^ 63) (min (atol text) (2 ^ 63 - 1))).bmod (2 ^ 32)

section Digits

theorem forall_digit {P : Nat → Prop} (all : ∀ digit : Fin 10, P digit.val) {digit : Nat}
    (small : digit < 10) : P digit :=
  all ⟨digit, small⟩

theorem isDigit_digitByte {digit : Nat} (small : digit < 10) : isDigit (digitByte digit) = true :=
  forall_digit (P := fun digit => isDigit (digitByte digit) = true) (by decide) small

theorem toNat_digitByte {digit : Nat} (small : digit < 10) :
    (digitByte digit).toNat - '0'.toNat = digit :=
  forall_digit (P := fun digit => (digitByte digit).toNat - '0'.toNat = digit) (by decide) small

theorem digitByte_ne_zero {digit : Nat} (small : digit < 10) (nonzero : digit ≠ 0) :
    digitByte digit ≠ ascii '0' :=
  forall_digit (P := fun digit => digit ≠ 0 → digitByte digit ≠ ascii '0') (by decide) small
    nonzero

/-- A digit is no white space and no sign. -/
theorem not_sign_of_isDigit : ∀ b : Byte, isDigit b = true →
    isSpace b = false ∧ b ≠ ascii '-' ∧ b ≠ ascii '+' := by
  apply forall_byte
  decide

theorem isDigit_of_mem_formatUnsigned {n : Nat} {b : Byte} (member : b ∈ formatUnsigned n) :
    isDigit b = true := by
  obtain ⟨digit, listed, rfl⟩ := List.mem_map.mp member
  exact isDigit_digitByte (decimalDigits_lt listed)

theorem exists_formatUnsigned_cons (n : Nat) :
    ∃ first rest, formatUnsigned n = first :: rest ∧ isDigit first = true := by
  cases digits : formatUnsigned n with
  | nil => exact absurd (List.map_eq_nil_iff.mp digits) (decimalDigits_ne_nil n)
  | cons first rest =>
      refine ⟨first, rest, rfl, isDigit_of_mem_formatUnsigned (n := n) ?_⟩
      rw [digits]
      exact List.mem_cons_self

theorem length_formatUnsigned_le {n k : Nat} (small : n < 10 ^ k) (positive : 0 < k) :
    (formatUnsigned n).length ≤ k := by
  rw [formatUnsigned, List.length_map]
  exact length_decimalDigits_le small positive

end Digits

section Reading

theorem leadingNumber_formatUnsigned (n : Nat) : leadingNumber (formatUnsigned n) = n := by
  have all : (formatUnsigned n).takeWhile isDigit = formatUnsigned n :=
    List.takeWhile_eq_self_iff.mpr (fun b member => isDigit_of_mem_formatUnsigned member)
  have values : (formatUnsigned n).map (fun b => b.toNat - '0'.toNat) = decimalDigits n := by
    rw [formatUnsigned, List.map_map]
    conv_rhs => rw [← List.map_id (decimalDigits n)]
    apply List.map_congr_left
    intro digit member
    exact toNat_digitByte (decimalDigits_lt member)
  rw [leadingNumber, all, values, ofDecimalDigits_decimalDigits]

theorem atol_of_isDigit {first : Byte} {rest : Bytes} (digit : isDigit first = true) :
    atol (first :: rest) = leadingNumber (first :: rest) := by
  obtain ⟨notSpace, notMinus, notPlus⟩ := not_sign_of_isDigit first digit
  rw [atol, List.dropWhile_cons_of_neg (by rw [notSpace]; decide)]
  simp only [if_neg notMinus, if_neg notPlus]

theorem atol_formatUnsigned (n : Nat) : atol (formatUnsigned n) = n := by
  obtain ⟨first, rest, text, digit⟩ := exists_formatUnsigned_cons n
  have number := leadingNumber_formatUnsigned n
  rw [text] at number ⊢
  rw [atol_of_isDigit digit, number]

/-- A printed number is read back. -/
theorem atol_formatSigned (n : Int) : atol (formatSigned n) = n := by
  rw [formatSigned]
  split
  · rename_i negative
    have minus : atol (ascii '-' :: formatUnsigned n.natAbs) =
        - (leadingNumber (formatUnsigned n.natAbs) : Int) := rfl
    rw [minus, leadingNumber_formatUnsigned]
    omega
  · rename_i nonnegative
    rw [atol_formatUnsigned]
    omega

/-- A printed `int` is read back. -/
theorem atoi_formatSigned {n : Int} (least : -2 ^ 31 ≤ n) (greatest : n < 2 ^ 31) :
    atoi (formatSigned n) = n := by
  rw [atoi, atol_formatSigned, min_eq_left (by omega), max_eq_right (by omega)]
  exact Int.bmod_eq_of_le (by omega) (by omega)

end Reading

/-- Integers as the doubles of a platform on which every integer is exact.  It
reads integer tokens as `strtod` does. -/
instance : CDouble Int where
  strtod := atol
  ofLongLong n := n
  toLongLong v := v
  eq left right := left = right
  lt left right := left < right
  formatG17 v := CString.ofMemory (formatSigned v)

end Dotten
