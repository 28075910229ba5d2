/-
Module: Dotten.Library.Utf
Layer: Library
Purpose: The UTF-8 and UTF-16 forms of code points as arithmetic, their usual
  spelling with shifts and masks, and texts that are well-formed UTF-8 or
  UTF-16.
Imports: Dotten.Library.Bits, Dotten.Library.PrefixCode
Main exports: IsCodePoint, IsSurrogate, utf8Word, utf8Bits_eq,
  utf8EncodeChar_eq, WellFormedUtf8, wellFormedUtf8_iff, utf16Word,
  WellFormedUtf16, surrogatePoint, HighsPaired, LowsPaired,
  wellFormedUtf16_iff_paired
-/
import Dotten.Library.Bits
import Dotten.Library.PrefixCode
import Mathlib.Data.List.Induction
import Mathlib.Tactic.Ring

namespace Dotten.Library

/-- A code point of Unicode. -/
def IsCodePoint (cp : Nat) : Prop := cp < 0x110000

/-- A code point that no character has. -/
def IsSurrogate (cp : Nat) : Prop := 0xD800 ≤ cp ∧ cp ≤ 0xDFFF

instance (cp : Nat) : Decidable (IsCodePoint cp) := inferInstanceAs (Decidable (_ < _))

instance (cp : Nat) : Decidable (IsSurrogate cp) := inferInstanceAs (Decidable (_ ∧ _))

/-- The code points that are characters. -/
theorem isValidChar_iff {cp : Nat} : cp.isValidChar ↔ IsCodePoint cp ∧ ¬ IsSurrogate cp := by
  unfold Nat.isValidChar IsCodePoint IsSurrogate
  omega

/-! ### UTF-8 -/

/-- The shortest UTF-8 form of a code point, a surrogate included. -/
def utf8Word (cp : Nat) : List UInt8 :=
  if cp < 0x80 then [UInt8.ofNat cp]
  else if cp < 0x800 then [UInt8.ofNat (cp / 64 + 0xC0), UInt8.ofNat (cp % 64 + 0x80)]
  else if cp < 0x10000 then
    [UInt8.ofNat (cp / 4096 + 0xE0), UInt8.ofNat (cp / 64 % 64 + 0x80),
      UInt8.ofNat (cp % 64 + 0x80)]
  else
    [UInt8.ofNat (cp / 262144 + 0xF0), UInt8.ofNat (cp / 4096 % 64 + 0x80),
      UInt8.ofNat (cp / 64 % 64 + 0x80), UInt8.ofNat (cp % 64 + 0x80)]

/-- The same form as programs write it, with shifts and masks. -/
def utf8Bits (cp : Nat) : List UInt8 :=
  if cp < 0x80 then [UInt8.ofNat cp]
  else if cp < 0x800 then [UInt8.ofNat (0xC0 ||| cp >>> 6), UInt8.ofNat (0x80 ||| cp &&& 0x3F)]
  else if cp < 0x10000 then
    [UInt8.ofNat (0xE0 ||| cp >>> 12), UInt8.ofNat (0x80 ||| cp >>> 6 &&& 0x3F),
      UInt8.ofNat (0x80 ||| cp &&& 0x3F)]
  else
    [UInt8.ofNat (0xF0 ||| cp >>> 18), UInt8.ofNat (0x80 ||| cp >>> 12 &&& 0x3F),
      UInt8.ofNat (0x80 ||| cp >>> 6 &&& 0x3F), UInt8.ofNat (0x80 ||| cp &&& 0x3F)]

section Bits

theorem utf8Bits_eq {cp : Nat} (point : IsCodePoint cp) : utf8Bits cp = utf8Word cp := by
  unfold IsCodePoint at point
  have tail : ∀ value, 0x80 ||| value % 64 = value % 64 + 0x80 := fun value =>
    or_low_bits 2 6 (Nat.mod_lt _ (by decide))
  have lead2 : cp < 0x800 → 0xC0 ||| cp / 64 = cp / 64 + 0xC0 := fun _ =>
    or_low_bits 6 5 (by omega)
  have lead3 : cp < 0x10000 → 0xE0 ||| cp / 4096 = cp / 4096 + 0xE0 := fun _ =>
    or_low_bits 14 4 (by omega)
  have lead4 : 0xF0 ||| cp / 262144 = cp / 262144 + 0xF0 := or_low_bits 30 3 (by omega)
  rw [utf8Bits, utf8Word]
  simp only [Nat.shiftRight_eq_div_pow, and_six_bits, Nat.reducePow, tail, lead4]
  split
  · rfl
  split
  · rename_i two
    rw [lead2 two]
  split
  · rename_i three
    rw [lead3 three]
  · rfl

/-- The encoder of Lean on the characters of Unicode. -/
theorem utf8EncodeChar_eq {cp : Nat} (scalar : cp.isValidChar) :
    String.utf8EncodeChar (Char.ofNat cp) = utf8Word cp := by
  have value : (Char.ofNat cp).val.toNat = cp := by
    rw [Char.ofNat, dif_pos scalar]
    rfl
  have point : cp < 0x110000 := (isValidChar_iff.mp scalar).1
  simp only [utf8Word, String.utf8EncodeChar, value]
  rcases Nat.lt_or_ge cp 0x80 with one | more
  · rw [if_pos one, if_pos (show cp ≤ 0x7f by omega)]
  rw [if_neg (show ¬ cp < 0x80 by omega), if_neg (show ¬ cp ≤ 0x7f by omega)]
  rcases Nat.lt_or_ge cp 0x800 with two | more
  · rw [if_pos two, if_pos (show cp ≤ 0x7ff by omega),
      Nat.mod_eq_of_lt (a := cp / 64) (b := 0x20) (by omega)]
  rw [if_neg (show ¬ cp < 0x800 by omega), if_neg (show ¬ cp ≤ 0x7ff by omega)]
  rcases Nat.lt_or_ge cp 0x10000 with three | more
  · rw [if_pos three, if_pos (show cp ≤ 0xffff by omega),
      Nat.mod_eq_of_lt (a := cp / 4096) (b := 0x10) (by omega)]
  rw [if_neg (show ¬ cp < 0x10000 by omega), if_neg (show ¬ cp ≤ 0xffff by omega),
    Nat.mod_eq_of_lt (a := cp / 262144) (b := 0x08) (by omega)]

end Bits

/-- The UTF-8 texts of RFC 3629: those that encode characters. -/
def WellFormedUtf8 (text : List UInt8) : Prop :=
  ∃ chars : List Char, chars.flatMap String.utf8EncodeChar = text

/-- Well-formed texts are spelled by scalar values. -/
theorem wellFormedUtf8_iff {text : List UInt8} :
    WellFormedUtf8 text ↔ ∃ points, Spells Nat.isValidChar utf8Word points text := by
  constructor
  · rintro ⟨chars, rfl⟩
    refine ⟨chars.map Char.toNat, ?_, ?_⟩
    · intro point member
      obtain ⟨char, -, rfl⟩ := List.mem_map.mp member
      exact char.valid
    · rw [List.flatMap_map]
      refine List.flatMap_congr fun char _ => ?_
      have encoded : String.utf8EncodeChar (Char.ofNat char.toNat) = utf8Word char.toNat :=
        utf8EncodeChar_eq char.valid
      rw [← encoded, Char.ofNat_toNat]
  · rintro ⟨points, valid, rfl⟩
    refine ⟨points.map Char.ofNat, ?_⟩
    rw [List.flatMap_map]
    exact List.flatMap_congr fun point member => utf8EncodeChar_eq (valid point member)

theorem utf8Word_ne_nil (cp : Nat) : utf8Word cp ≠ [] := by
  unfold utf8Word
  split_ifs <;> exact List.cons_ne_nil _ _

theorem length_utf8Word (cp : Nat) :
    (utf8Word cp).length =
      if cp < 0x80 then 1 else if cp < 0x800 then 2 else if cp < 0x10000 then 3 else 4 := by
  unfold utf8Word
  split_ifs <;> rfl

section Lengths

variable {cp : Nat}

theorem toNat_ofNat_byte {n : Nat} (small : n < 256) : (UInt8.ofNat n).toNat = n :=
  UInt8.toNat_ofNat_of_lt' small

theorem utf8Word_one (below : cp < 0x80) : ∃ b, utf8Word cp = [b] ∧ b.toNat = cp := by
  refine ⟨UInt8.ofNat cp, ?_, toNat_ofNat_byte (by omega)⟩
  rw [utf8Word, if_pos below]

theorem utf8Word_two (above : 0x80 ≤ cp) (below : cp < 0x800) :
    ∃ b0 b1, utf8Word cp = [b0, b1] ∧ b0.toNat = cp / 64 + 0xC0 ∧ b1.toNat = cp % 64 + 0x80 := by
  refine ⟨UInt8.ofNat (cp / 64 + 0xC0), UInt8.ofNat (cp % 64 + 0x80), ?_,
    toNat_ofNat_byte (by omega), toNat_ofNat_byte (by omega)⟩
  rw [utf8Word, if_neg (by omega), if_pos below]

theorem utf8Word_three (above : 0x800 ≤ cp) (below : cp < 0x10000) :
    ∃ b0 b1 b2, utf8Word cp = [b0, b1, b2] ∧ b0.toNat = cp / 4096 + 0xE0 ∧
      b1.toNat = cp / 64 % 64 + 0x80 ∧ b2.toNat = cp % 64 + 0x80 := by
  refine ⟨UInt8.ofNat (cp / 4096 + 0xE0), UInt8.ofNat (cp / 64 % 64 + 0x80),
    UInt8.ofNat (cp % 64 + 0x80), ?_, toNat_ofNat_byte (by omega), toNat_ofNat_byte (by omega),
    toNat_ofNat_byte (by omega)⟩
  rw [utf8Word, if_neg (by omega), if_neg (by omega), if_pos below]

theorem utf8Word_four (above : 0x10000 ≤ cp) (point : IsCodePoint cp) :
    ∃ b0 b1 b2 b3, utf8Word cp = [b0, b1, b2, b3] ∧ b0.toNat = cp / 262144 + 0xF0 ∧
      b1.toNat = cp / 4096 % 64 + 0x80 ∧ b2.toNat = cp / 64 % 64 + 0x80 ∧
      b3.toNat = cp % 64 + 0x80 := by
  unfold IsCodePoint at point
  refine ⟨UInt8.ofNat (cp / 262144 + 0xF0), UInt8.ofNat (cp / 4096 % 64 + 0x80),
    UInt8.ofNat (cp / 64 % 64 + 0x80), UInt8.ofNat (cp % 64 + 0x80), ?_,
    toNat_ofNat_byte (by omega), toNat_ofNat_byte (by omega), toNat_ofNat_byte (by omega),
    toNat_ofNat_byte (by omega)⟩
  rw [utf8Word, if_neg (by omega), if_neg (by omega), if_neg (by omega)]

end Lengths

/-- The forms of other code points than the ASCII ones have no ASCII bytes. -/
theorem utf8Word_bytes_ge {cp : Nat} (above : 0x80 ≤ cp) (point : IsCodePoint cp) :
    ∀ b ∈ utf8Word cp, 0x80 ≤ b.toNat := by
  rcases Nat.lt_or_ge cp 0x800 with two | two
  · obtain ⟨b0, b1, word, value0, value1⟩ := utf8Word_two above two
    rw [word, List.forall_mem_cons, List.forall_mem_singleton]
    omega
  rcases Nat.lt_or_ge cp 0x10000 with three | three
  · obtain ⟨b0, b1, b2, word, value0, value1, value2⟩ := utf8Word_three two three
    rw [word, List.forall_mem_cons, List.forall_mem_cons, List.forall_mem_singleton]
    omega
  · obtain ⟨b0, b1, b2, b3, word, value0, value1, value2, value3⟩ := utf8Word_four three point
    rw [word, List.forall_mem_cons, List.forall_mem_cons, List.forall_mem_cons,
      List.forall_mem_singleton]
    omega

/-- Only the null character has a zero byte. -/
theorem zero_notMem_utf8Word {cp : Nat} (positive : 0 < cp) (point : IsCodePoint cp) :
    (0 : UInt8) ∉ utf8Word cp := by
  intro zero
  rcases Nat.lt_or_ge cp 0x80 with one | one
  · obtain ⟨b, word, value⟩ := utf8Word_one one
    rw [word, List.mem_singleton] at zero
    rw [← zero] at value
    exact absurd value (Nat.ne_of_lt positive)
  · exact absurd (utf8Word_bytes_ge one point 0 zero) (by decide)

theorem zero_mem_utf8Word_iff {cp : Nat} (point : IsCodePoint cp) :
    (0 : UInt8) ∈ utf8Word cp ↔ cp = 0 := by
  constructor
  · intro member
    by_contra nonzero
    exact zero_notMem_utf8Word (Nat.pos_of_ne_zero nonzero) point member
  · rintro rfl
    decide

/-- A text holds a zero byte where it spells the null character. -/
theorem zero_mem_utf8_iff {points : List Nat} (valid : ∀ cp ∈ points, IsCodePoint cp) :
    (0 : UInt8) ∈ points.flatMap utf8Word ↔ 0 ∈ points := by
  rw [List.mem_flatMap]
  constructor
  · rintro ⟨cp, member, zero⟩
    rw [zero_mem_utf8Word_iff (valid cp member)] at zero
    exact zero ▸ member
  · intro member
    exact ⟨0, member, by decide⟩

/-! ### UTF-16 -/

/-- The code point of a high and a low surrogate unit. -/
def surrogatePoint (high low : Nat) : Nat := 0x10000 + (high - 0xD800) * 0x400 + (low - 0xDC00)

/-- A unit that is the first of a pair. -/
def IsHighUnit (unit : UInt16) : Prop := 0xD800 ≤ unit.toNat ∧ unit.toNat ≤ 0xDBFF

/-- A unit that is the second of a pair. -/
def IsLowUnit (unit : UInt16) : Prop := 0xDC00 ≤ unit.toNat ∧ unit.toNat ≤ 0xDFFF

instance (unit : UInt16) : Decidable (IsHighUnit unit) := inferInstanceAs (Decidable (_ ∧ _))

instance (unit : UInt16) : Decidable (IsLowUnit unit) := inferInstanceAs (Decidable (_ ∧ _))

/-- The UTF-16 form of a code point; that of a surrogate is the surrogate. -/
def utf16Word (cp : Nat) : List UInt16 :=
  if 0xFFFF < cp then
    [UInt16.ofNat (0xD800 + (cp - 0x10000) / 0x400), UInt16.ofNat (0xDC00 + (cp - 0x10000) % 0x400)]
  else [UInt16.ofNat cp]

/-- The well-formed UTF-16 texts: every high surrogate is followed by a low one,
and there is no other low one. -/
inductive WellFormedUtf16 : List UInt16 → Prop where
  | nil : WellFormedUtf16 []
  | single {unit : UInt16} {units : List UInt16} (notHigh : ¬ IsHighUnit unit)
      (notLow : ¬ IsLowUnit unit) (rest : WellFormedUtf16 units) : WellFormedUtf16 (unit :: units)
  | pair {high low : UInt16} {units : List UInt16} (isHigh : IsHighUnit high)
      (isLow : IsLowUnit low) (rest : WellFormedUtf16 units) :
      WellFormedUtf16 (high :: low :: units)

section Units

theorem toNat_ofNat_unit {n : Nat} (small : n < 0x10000) : (UInt16.ofNat n).toNat = n :=
  UInt16.toNat_ofNat_of_lt' small

theorem utf16Word_ne_nil (cp : Nat) : utf16Word cp ≠ [] := by
  unfold utf16Word
  split_ifs <;> exact List.cons_ne_nil _ _

theorem length_utf16Word (cp : Nat) : (utf16Word cp).length = if cp > 0xFFFF then 2 else 1 := by
  rw [utf16Word]
  split_ifs <;> rfl

/-- A unit that is no surrogate is a character of its own. -/
theorem utf16Word_unit (unit : UInt16) : utf16Word unit.toNat = [unit] := by
  have small := unit.toNat_lt
  rw [utf16Word, if_neg (by omega), UInt16.ofNat_toNat]

theorem isValidChar_unit {unit : UInt16} (notHigh : ¬ IsHighUnit unit) (notLow : ¬ IsLowUnit unit) :
    unit.toNat.isValidChar := by
  have small := unit.toNat_lt
  unfold IsHighUnit at notHigh
  unfold IsLowUnit at notLow
  unfold Nat.isValidChar
  omega

/-- A pair is a character beyond the first 65536. -/
theorem surrogatePoint_bounds {high low : UInt16} (isHigh : IsHighUnit high)
    (isLow : IsLowUnit low) :
    0xFFFF < surrogatePoint high.toNat low.toNat ∧
      surrogatePoint high.toNat low.toNat < 0x110000 := by
  unfold IsHighUnit at isHigh
  unfold IsLowUnit at isLow
  unfold surrogatePoint
  omega

theorem isValidChar_surrogatePoint {high low : UInt16} (isHigh : IsHighUnit high)
    (isLow : IsLowUnit low) : (surrogatePoint high.toNat low.toNat).isValidChar := by
  have bounds := surrogatePoint_bounds isHigh isLow
  exact isValidChar_iff.mpr ⟨bounds.2, by unfold IsSurrogate; omega⟩

theorem utf16Word_surrogatePoint {high low : UInt16} (isHigh : IsHighUnit high)
    (isLow : IsLowUnit low) : utf16Word (surrogatePoint high.toNat low.toNat) = [high, low] := by
  have bounds := surrogatePoint_bounds isHigh isLow
  unfold IsHighUnit at isHigh
  unfold IsLowUnit at isLow
  have first : 0xD800 + (surrogatePoint high.toNat low.toNat - 0x10000) / 0x400 = high.toNat := by
    unfold surrogatePoint
    omega
  have second : 0xDC00 + (surrogatePoint high.toNat low.toNat - 0x10000) % 0x400 = low.toNat := by
    unfold surrogatePoint
    omega
  rw [utf16Word, if_pos bounds.1, first, second, UInt16.ofNat_toNat, UInt16.ofNat_toNat]

/-- The two units of a character beyond the first 65536. -/
theorem utf16Word_pair {cp : Nat} (large : 0xFFFF < cp) (point : IsCodePoint cp) :
    ∃ high low, IsHighUnit high ∧ IsLowUnit low ∧ utf16Word cp = [high, low] ∧
      surrogatePoint high.toNat low.toNat = cp := by
  unfold IsCodePoint at point
  have first : (UInt16.ofNat (0xD800 + (cp - 0x10000) / 0x400)).toNat =
      0xD800 + (cp - 0x10000) / 0x400 := toNat_ofNat_unit (by omega)
  have second : (UInt16.ofNat (0xDC00 + (cp - 0x10000) % 0x400)).toNat =
      0xDC00 + (cp - 0x10000) % 0x400 := toNat_ofNat_unit (by omega)
  have word : utf16Word cp = [UInt16.ofNat (0xD800 + (cp - 0x10000) / 0x400),
      UInt16.ofNat (0xDC00 + (cp - 0x10000) % 0x400)] := by
    rw [utf16Word, if_pos large]
  generalize UInt16.ofNat (0xD800 + (cp - 0x10000) / 0x400) = high at first word
  generalize UInt16.ofNat (0xDC00 + (cp - 0x10000) % 0x400) = low at second word
  refine ⟨high, low, ?_, ?_, word, ?_⟩
  · rw [IsHighUnit, first]
    omega
  · rw [IsLowUnit, second]
    omega
  · unfold surrogatePoint
    omega

/-- The one unit of another character. -/
theorem utf16Word_single {cp : Nat} (small : cp ≤ 0xFFFF) (scalar : cp.isValidChar) :
    ∃ unit, ¬ IsHighUnit unit ∧ ¬ IsLowUnit unit ∧ utf16Word cp = [unit] ∧ unit.toNat = cp := by
  have value : (UInt16.ofNat cp).toNat = cp := toNat_ofNat_unit (by omega)
  have notSurrogate := (isValidChar_iff.mp scalar).2
  unfold IsSurrogate at notSurrogate
  have word : utf16Word cp = [UInt16.ofNat cp] := by
    rw [utf16Word, if_neg (by omega)]
  refine ⟨UInt16.ofNat cp, ?_, ?_, word, value⟩
  · rw [IsHighUnit, value]
    omega
  · rw [IsLowUnit, value]
    omega

theorem zero_mem_utf16Word_iff {cp : Nat} (point : IsCodePoint cp) :
    (0 : UInt16) ∈ utf16Word cp ↔ cp = 0 := by
  rcases Nat.lt_or_ge 0xFFFF cp with large | small
  · obtain ⟨high, low, isHigh, isLow, word, -⟩ := utf16Word_pair large point
    have notHigh : ¬ IsHighUnit 0 := by decide
    have notLow : ¬ IsLowUnit 0 := by decide
    rw [word]
    apply iff_of_false
    · intro member
      rcases List.mem_cons.mp member with rfl | later
      · exact notHigh isHigh
      · rw [List.mem_singleton] at later
        exact notLow (later ▸ isLow)
    · omega
  · have value : (UInt16.ofNat cp).toNat = cp := toNat_ofNat_unit (by omega)
    rw [utf16Word, if_neg (by omega), List.mem_singleton, ← UInt16.toNat_inj, value]
    exact eq_comm

/-- An array holds a zero unit where it spells the null character. -/
theorem zero_mem_utf16_iff {points : List Nat} (valid : ∀ cp ∈ points, IsCodePoint cp) :
    (0 : UInt16) ∈ points.flatMap utf16Word ↔ 0 ∈ points := by
  rw [List.mem_flatMap]
  constructor
  · rintro ⟨cp, member, zero⟩
    rw [zero_mem_utf16Word_iff (valid cp member)] at zero
    exact zero ▸ member
  · intro member
    exact ⟨0, member, by decide⟩

/-- Well-formed texts are spelled by scalar values. -/
theorem wellFormedUtf16_iff {units : List UInt16} :
    WellFormedUtf16 units ↔ ∃ points, Spells Nat.isValidChar utf16Word points units := by
  constructor
  · intro wellFormed
    induction wellFormed with
    | nil => exact ⟨[], spells_nil⟩
    | single notHigh notLow _ inductionHypothesis =>
        rename_i unit _ _
        obtain ⟨points, spells⟩ := inductionHypothesis
        have longer := spells.cons (isValidChar_unit notHigh notLow)
        rw [utf16Word_unit] at longer
        exact ⟨_, longer⟩
    | pair isHigh isLow _ inductionHypothesis =>
        obtain ⟨points, spells⟩ := inductionHypothesis
        have longer := spells.cons (isValidChar_surrogatePoint isHigh isLow)
        rw [utf16Word_surrogatePoint isHigh isLow] at longer
        exact ⟨_, longer⟩
  · rintro ⟨points, valid, rfl⟩
    induction points with
    | nil => exact .nil
    | cons cp points inductionHypothesis =>
        obtain ⟨scalar, later⟩ := List.forall_mem_cons.mp valid
        have rest := inductionHypothesis later
        rw [List.flatMap_cons]
        rcases Nat.lt_or_ge 0xFFFF cp with large | small
        · obtain ⟨high, low, isHigh, isLow, word, -⟩ :=
            utf16Word_pair large (isValidChar_iff.mp scalar).1
          rw [word]
          exact .pair isHigh isLow rest
        · obtain ⟨unit, notHigh, notLow, word, -⟩ := utf16Word_single small scalar
          rw [word]
          exact .single notHigh notLow rest

end Units

section Pairing

/-- Every high surrogate stands right before a low one.  The zero at the end is
no surrogate. -/
def HighsPaired (units : List UInt16) : Prop :=
  (units ++ [0]).IsChain fun unit next => IsHighUnit unit → IsLowUnit next

/-- Every low surrogate stands right after a high one. -/
def LowsPaired (units : List UInt16) : Prop :=
  ((0 : UInt16) :: units).IsChain fun unit next => IsLowUnit next → IsHighUnit unit

theorem not_isLowUnit_of_high {unit : UInt16} (isHigh : IsHighUnit unit) : ¬ IsLowUnit unit := by
  unfold IsHighUnit at isHigh
  unfold IsLowUnit
  omega

theorem not_isHighUnit_of_low {unit : UInt16} (isLow : IsLowUnit unit) : ¬ IsHighUnit unit :=
  fun isHigh => not_isLowUnit_of_high isHigh isLow

theorem highsPaired_nil : HighsPaired [] := .singleton 0

/-- Another unit than a high surrogate may stand before anything. -/
theorem highsPaired_cons_of_not {unit : UInt16} {units : List UInt16}
    (notHigh : ¬ IsHighUnit unit) : HighsPaired (unit :: units) ↔ HighsPaired units := by
  cases units with
  | nil => simp [HighsPaired, notHigh]
  | cons next units => simp [HighsPaired, notHigh]

/-- A high surrogate starts a pair. -/
theorem highsPaired_cons_of_high {unit : UInt16} {units : List UInt16} (isHigh : IsHighUnit unit) :
    HighsPaired (unit :: units) ↔
      ∃ low rest, units = low :: rest ∧ IsLowUnit low ∧ HighsPaired rest := by
  cases units with
  | nil =>
      have notLow : ¬ IsLowUnit 0 := by decide
      simp [HighsPaired, isHigh, notLow]
  | cons next units =>
      have pair : HighsPaired (unit :: next :: units) ↔
          IsLowUnit next ∧ HighsPaired (next :: units) := by
        simp [HighsPaired, isHigh]
      rw [pair]
      constructor
      · rintro ⟨isLow, rest⟩
        exact ⟨next, units, rfl, isLow,
          (highsPaired_cons_of_not (not_isHighUnit_of_low isLow)).mp rest⟩
      · rintro ⟨low, rest, same, isLow, paired⟩
        obtain ⟨rfl, rfl⟩ := List.cons.inj same
        exact ⟨isLow, (highsPaired_cons_of_not (not_isHighUnit_of_low isLow)).mpr paired⟩

/-- The well-formed texts are those whose surrogates are all paired. -/
theorem wellFormedUtf16_iff_paired {units : List UInt16} :
    WellFormedUtf16 units ↔ HighsPaired units ∧ LowsPaired units := by
  constructor
  · intro wellFormed
    have paired : HighsPaired units ∧ ∀ previous : UInt16,
        (previous :: units).IsChain fun unit next => IsLowUnit next → IsHighUnit unit := by
      induction wellFormed with
      | nil => exact ⟨highsPaired_nil, fun previous => .singleton previous⟩
      | single notHigh notLow _ inductionHypothesis =>
          obtain ⟨highs, lows⟩ := inductionHypothesis
          refine ⟨(highsPaired_cons_of_not notHigh).mpr highs, ?_⟩
          intro previous
          exact List.isChain_cons_cons.mpr ⟨fun isLow => absurd isLow notLow, lows _⟩
      | pair isHigh isLow _ inductionHypothesis =>
          obtain ⟨highs, lows⟩ := inductionHypothesis
          refine ⟨(highsPaired_cons_of_high isHigh).mpr ⟨_, _, rfl, isLow, highs⟩, ?_⟩
          intro previous
          refine List.isChain_cons_cons.mpr ⟨?_, List.isChain_cons_cons.mpr ⟨fun _ => isHigh, lows _⟩⟩
          exact fun bad => absurd bad (not_isLowUnit_of_high isHigh)
    exact ⟨paired.1, paired.2 0⟩
  · rintro ⟨highs, lows⟩
    have notHigh : ¬ IsHighUnit 0 := by decide
    unfold LowsPaired at lows
    generalize (0 : UInt16) = previous at lows notHigh
    induction units using List.twoStepInduction generalizing previous with
    | nil => exact .nil
    | singleton unit =>
        have alone : ¬ IsHighUnit unit := by
          intro isHigh
          obtain ⟨low, rest, impossible, -⟩ := (highsPaired_cons_of_high isHigh).mp highs
          cases impossible
        have first := (List.isChain_cons_cons.mp lows).1
        exact .single alone (fun isLow => notHigh (first isLow)) .nil
    | cons_cons unit next units pairStep singleStep =>
        obtain ⟨first, later⟩ := List.isChain_cons_cons.mp lows
        have notLow : ¬ IsLowUnit unit := fun isLow => notHigh (first isLow)
        by_cases isHigh : IsHighUnit unit
        · obtain ⟨low, rest, same, isLow, paired⟩ := (highsPaired_cons_of_high isHigh).mp highs
          obtain ⟨rfl, rfl⟩ := List.cons.inj same
          exact .pair isHigh isLow (pairStep paired next (List.isChain_cons_cons.mp later).2
            (not_isHighUnit_of_low isLow))
        · exact .single isHigh notLow
            (singleStep next ((highsPaired_cons_of_not isHigh).mp highs) unit later isHigh)

end Pairing

end Dotten.Library
