/-
Module: Dotten.Json.JsonPrinter
Layer: Json
Purpose: The texts that the printer writes for numbers and strings: JSON numbers
  for small integers, and escapes that denote the bytes of a string.
Imports: Dotten.Json.TenJsonStringify, Dotten.Json.JsonStrings
Main exports: ExactIntegers, IsSmallInteger, tenJsonStringifyNumber_eq, quoted,
  charsText_escaped, separated, memberText
-/
import Dotten.Json.TenJsonStringify
import Dotten.Json.JsonStrings

namespace Dotten

open Dotten.Library

section Integers

/-- What is assumed of doubles: below 2^53 every integer is a double, and the
conversions from and to it, the comparisons with it and the reading of its
numeral are exact. -/
structure ExactIntegers (D : Type) [CDouble D] : Prop where
  toLongLong_eq {v : D} {n : Int} (small : n.natAbs < 2 ^ 53)
    (equal : CDouble.eq v (CDouble.ofLongLong n) = true) : CDouble.toLongLong v = n
  lt_left {v : D} {n : Int} (m : Int) (small : n.natAbs < 2 ^ 53) (bound : m.natAbs < 2 ^ 53)
    (equal : CDouble.eq v (CDouble.ofLongLong n) = true) :
    CDouble.lt (CDouble.ofLongLong m) v = decide (m < n)
  lt_right {v : D} {n : Int} (m : Int) (small : n.natAbs < 2 ^ 53) (bound : m.natAbs < 2 ^ 53)
    (equal : CDouble.eq v (CDouble.ofLongLong n) = true) :
    CDouble.lt v (CDouble.ofLongLong m) = decide (n < m)
  strtod_formatSigned {n : Int} (small : n.natAbs < 2 ^ 53) :
    CDouble.strtod (D := D) (formatSigned n) = CDouble.ofLongLong n

theorem exactIntegers_int : ExactIntegers Int where
  toLongLong_eq _ equal := of_decide_eq_true equal
  lt_left m _ _ equal := by
    cases of_decide_eq_true equal
    rfl
  lt_right m _ _ equal := by
    cases of_decide_eq_true equal
    rfl
  strtod_formatSigned _ := atol_formatSigned _

/-- A double that is an integer of magnitude below 10^15. -/
def IsSmallInteger {D : Type} [CDouble D] (v : D) : Prop :=
  ∃ n : Int, n.natAbs < 10 ^ 15 ∧ CDouble.eq v (CDouble.ofLongLong n) = true

variable {D : Type} [CDouble D]

theorem length_formatSigned_lt {n : Int} (small : n.natAbs < 10 ^ 15) :
    (formatSigned n).length ≤ 31 := by
  have digits := length_formatUnsigned_le small (by decide)
  rw [formatSigned]
  split
  · rw [List.length_cons]
    omega
  · omega

theorem snprintf_of_length_lt {size : Nat} {text : Bytes} (fits : text.length ≤ size - 1) :
    snprintf size text = text :=
  List.take_of_length_le fits

/-- A small integer is printed as its numeral. -/
theorem tenJsonStringifyNumber_eq (exact : ExactIntegers D) {v : D} {n : Int}
    (small : n.natAbs < 10 ^ 15) (equal : CDouble.eq v (CDouble.ofLongLong n) = true) :
    tenJsonStringifyNumber v = formatSigned n := by
  have within : n.natAbs < 2 ^ 53 := Nat.lt_trans small (by decide)
  rw [tenJsonStringifyNumber, exact.toLongLong_eq within equal, equal,
    exact.lt_left _ within (by decide) equal, exact.lt_right _ within (by decide) equal,
    decide_eq_true (show -10 ^ 15 < n by omega), decide_eq_true (show n < 10 ^ 15 by omega)]
  exact snprintf_of_length_lt (length_formatSigned_lt small)

theorem isInteger_formatUnsigned (n : Nat) : IsInteger (formatUnsigned n) := by
  cases n with
  | zero => exact .zero
  | succ n =>
      obtain ⟨first, rest, digits, nonzero⟩ := exists_decimalDigits_cons (Nat.succ_ne_zero n)
      have small : ∀ digit ∈ first :: rest, digit < 10 := by
        rw [← digits]
        exact fun digit member => decimalDigits_lt member
      rw [formatUnsigned, digits, List.map_cons]
      have firstSmall := small first List.mem_cons_self
      apply IsInteger.positive (isDigit_digitByte firstSmall)
        (digitByte_ne_zero firstSmall nonzero)
      intro b member
      obtain ⟨digit, listed, rfl⟩ := List.mem_map.mp member
      exact isDigit_digitByte (small digit (List.mem_cons_of_mem first listed))

/-- A numeral is a JSON number. -/
theorem isJsonNumber_formatSigned (n : Int) : IsJsonNumber (formatSigned n) := by
  have integer := isInteger_formatUnsigned n.natAbs
  rw [formatSigned]
  split
  · have number := IsJsonNumber.intro (.inr rfl) integer .none .none
    rw [List.append_nil, List.append_nil] at number
    exact number
  · have number := IsJsonNumber.intro (.inl rfl) integer .none .none
    rw [List.append_nil, List.append_nil] at number
    exact number

theorem noNul_formatSigned (n : Int) : (0 : Byte) ∉ formatSigned n := by
  have digits : (0 : Byte) ∉ formatUnsigned n.natAbs := by
    intro member
    have digit := isDigit_of_mem_formatUnsigned member
    cases digit
  rw [formatSigned]
  split
  · rw [List.mem_cons, not_or]
    exact ⟨by decide, digits⟩
  · exact digits

end Integers

section Texts

theorem noNul_escapeByte : ∀ c : Byte, c ≠ 0 → (0 : Byte) ∉ tenJsonEscapeByte c := by
  apply forall_byte
  decide

/-- A string in its quotes. -/
def quoted (s : Bytes) : Bytes :=
  ascii '"' :: (s.flatMap tenJsonEscapeByte ++ [ascii '"'])

theorem isHexDigit_hexByte (n : Nat) : isHexDigit (hexByte (n % 16)) = true := by
  have all : ∀ digit : Fin 16, isHexDigit (hexByte digit.val) = true := by decide
  exact all ⟨n % 16, Nat.mod_lt _ (by decide)⟩

/-- The digits of a `u` escape. -/
def hexQuad (n : Nat) : HexQuad where
  d0 := hexByte (n / 4096 % 16)
  d1 := hexByte (n / 256 % 16)
  d2 := hexByte (n / 16 % 16)
  d3 := hexByte (n % 16)
  valid := by
    intro d member
    simp only [List.mem_cons, List.not_mem_nil, or_false] at member
    rcases member with rfl | rfl | rfl | rfl <;> exact isHexDigit_hexByte _

/-- The escape of a control character denotes it. -/
theorem hexQuad_control : ∀ c : Byte, c.toNat < 0x20 →
    (hexQuad c.toNat).unit = c.toNat ∧ utf8 c.toNat = [c] ∧
      tenJsonEscapeByte c ∈ [ascii '\\' :: ascii 'u' :: (hexQuad c.toNat).bytes,
        asciiBytes ['\\', 'n'], asciiBytes ['\\', 'r'], asciiBytes ['\\', 't']] := by
  apply forall_byte
  decide

/-- Every byte is written as a character of a JSON string that denotes it. -/
theorem charText_escapeByte {c : Byte} (nonzero : c ≠ 0) :
    CharText Dialect.wellFormed (tenJsonEscapeByte c) [c] := by
  rw [tenJsonEscapeByte]
  split
  · rename_i quote
    subst quote
    exact .escape (by decide)
  split
  · rename_i backslash
    subst backslash
    exact .escape (by decide)
  split
  · rename_i newline
    subst newline
    exact .escape (by decide)
  split
  · rename_i carriageReturn
    subst carriageReturn
    exact .escape (by decide)
  split
  · rename_i tab
    subst tab
    exact .escape (by decide)
  rename_i notQuote notBackslash _ _ _
  split
  · rename_i control
    obtain ⟨unit, encoded, -⟩ := hexQuad_control c control
    have allowed : Dialect.wellFormed.unit (hexQuad c.toNat).unit := by
      rw [unit]
      have positive : c.toNat ≠ 0 := by
        intro zero
        exact nonzero (UInt8.toNat_inj.mp zero)
      exact ⟨positive, fun high => by have := high.1; omega, fun low => by have := low.1; omega⟩
    have char := CharText.unit (hexQuad c.toNat) allowed
    have content : Dialect.wellFormed.encode (hexQuad c.toNat).unit = [c] := by
      rw [unit]
      exact encoded
    rw [content] at char
    exact char
  · rename_i printable
    exact .raw (Nat.le_of_not_lt printable) notQuote notBackslash

theorem charsText_escaped {s : Bytes} (noNul : (0 : Byte) ∉ s) :
    CharsText Dialect.wellFormed (s.flatMap tenJsonEscapeByte) s := by
  induction s with
  | nil => exact .nil
  | cons c s inductionHypothesis =>
      rw [List.mem_cons, not_or] at noNul
      exact .cons (charText_escapeByte (Ne.symm noNul.1)) (inductionHypothesis noNul.2)

/-- Pieces of text with commas between them, and one before the first when
something stands before it. -/
def separated : Bool → List Bytes → Bytes
  | _, [] => []
  | later, text :: texts => (if later then asciiBytes [','] else []) ++ (text ++ separated true texts)

/-- The text of a member. -/
def memberText (key text : Bytes) : Bytes := quoted key ++ ascii ':' :: text

end Texts

end Dotten
