/-
Module: Dotten.Encoding.UtfWords
Layer: Encoding
Purpose: What the decoders of encoding.c read: one shortest form of a code
  point, and one UTF-16 form of a character.
Imports: Dotten.Encoding.TenUtf, Dotten.Library.Utf
Main exports: tenUtf8DecodeOne_reads, tenUtf16DecodeOne_reads,
  tenUtf16DecodeChecked_of_decodeOne, tenUtf8Bytes_eq, tenUtf16Units_eq
-/
import Dotten.Encoding.TenUtf
import Dotten.Library.Utf

namespace Dotten

open Dotten.Library

section Masks

/-- The tests and masks of the decoder as arithmetic on bytes. -/
theorem continuation_iff : ∀ b : Byte, b &&& 0xC0 = 0x80 ↔ 0x80 ≤ b.toNat ∧ b.toNat < 0xC0 := by
  apply forall_byte
  decide

theorem lead2_iff : ∀ b : Byte, b &&& 0xE0 = 0xC0 ↔ 0xC0 ≤ b.toNat ∧ b.toNat < 0xE0 := by
  apply forall_byte
  decide

theorem lead3_iff : ∀ b : Byte, b &&& 0xF0 = 0xE0 ↔ 0xE0 ≤ b.toNat ∧ b.toNat < 0xF0 := by
  apply forall_byte
  decide

theorem lead4_iff : ∀ b : Byte, b &&& 0xF8 = 0xF0 ↔ 0xF0 ≤ b.toNat ∧ b.toNat < 0xF8 := by
  apply forall_byte
  decide

theorem low3_eq : ∀ b : Byte, (b &&& 0x07).toNat = b.toNat % 8 := by
  apply forall_byte
  decide

theorem low4_eq : ∀ b : Byte, (b &&& 0x0F).toNat = b.toNat % 16 := by
  apply forall_byte
  decide

theorem low5_eq : ∀ b : Byte, (b &&& 0x1F).toNat = b.toNat % 32 := by
  apply forall_byte
  decide

theorem low6_eq : ∀ b : Byte, (b &&& 0x3F).toNat = b.toNat % 64 := by
  apply forall_byte
  decide

/-- The fields of a code point put together. -/
theorem fields2 {a b : Nat} (small : b < 64) : a <<< 6 ||| b = a * 64 + b := by
  rw [or_low_bits a 6 small]
  omega

theorem fields3 {a b c : Nat} (smallB : b < 64) (smallC : c < 64) :
    a <<< 12 ||| b <<< 6 ||| c = a * 4096 + b * 64 + c := by
  have pair : b <<< 6 ||| c = b * 64 + c := fields2 smallC
  have low : b * 64 + c < 2 ^ 12 := by omega
  rw [Nat.or_assoc, pair, or_low_bits a 12 low]
  omega

theorem fields4 {a b c d : Nat} (smallB : b < 64) (smallC : c < 64) (smallD : d < 64) :
    a <<< 18 ||| b <<< 12 ||| c <<< 6 ||| d = a * 262144 + b * 4096 + c * 64 + d := by
  have triple : b <<< 12 ||| c <<< 6 ||| d = b * 4096 + c * 64 + d := fields3 smallC smallD
  have low : b * 4096 + c * 64 + d < 2 ^ 18 := by omega
  rw [Nat.or_assoc, Nat.or_assoc, ← Nat.or_assoc (b <<< 12), triple, or_low_bits a 18 low]
  omega

/-- The fields of a code point taken apart again. -/
theorem digits4 {a b c d : Nat} (smallB : b < 64) (smallC : c < 64) (smallD : d < 64) :
    (a * 262144 + b * 4096 + c * 64 + d) / 262144 = a ∧
      (a * 262144 + b * 4096 + c * 64 + d) / 4096 % 64 = b ∧
      (a * 262144 + b * 4096 + c * 64 + d) / 64 % 64 = c ∧
      (a * 262144 + b * 4096 + c * 64 + d) % 64 = d := by
  refine ⟨?_, ?_, ?_, ?_⟩
  · omega
  · omega
  · omega
  · omega

end Masks

/-- A byte with a tag in its upper bits. -/
def IsContinuation (b : Byte) : Prop := 0x80 ≤ b.toNat ∧ b.toNat < 0xC0

instance (b : Byte) : Decidable (IsContinuation b) := inferInstanceAs (Decidable (_ ∧ _))

theorem low6_lt (b : Byte) : b.toNat % 64 < 64 := Nat.mod_lt _ (by decide)

/-- `ten__utf8_decode_one` in arithmetic. -/
theorem tenUtf8DecodeOne_cons (c : Byte) (tail : Bytes) :
    tenUtf8DecodeOne (c :: tail) =
      let s1 := tail.getD 0 0
      let s2 := tail.getD 1 0
      let s3 := tail.getD 2 0
      if c.toNat < 0x80 then some (c.toNat, 1)
      else if (0xC0 ≤ c.toNat ∧ c.toNat < 0xE0) ∧ 2 ≤ tail.length + 1 ∧ IsContinuation s1 then
        let cp := c.toNat % 32 * 64 + s1.toNat % 64
        if 0x80 ≤ cp then some (cp, 2) else none
      else if (0xE0 ≤ c.toNat ∧ c.toNat < 0xF0) ∧ 3 ≤ tail.length + 1 ∧ IsContinuation s1 ∧
          IsContinuation s2 then
        let cp := c.toNat % 16 * 4096 + s1.toNat % 64 * 64 + s2.toNat % 64
        if 0x800 ≤ cp then some (cp, 3) else none
      else if (0xF0 ≤ c.toNat ∧ c.toNat < 0xF8) ∧ 4 ≤ tail.length + 1 ∧ IsContinuation s1 ∧
          IsContinuation s2 ∧ IsContinuation s3 then
        let cp := c.toNat % 8 * 262144 + s1.toNat % 64 * 4096 + s2.toNat % 64 * 64 + s3.toNat % 64
        if 0x10000 ≤ cp ∧ cp ≤ 0x10FFFF then some (cp, 4) else none
      else none := by
  have ascii : c < 0x80 ↔ c.toNat < 0x80 := UInt8.lt_iff_toNat_lt
  simp only [tenUtf8DecodeOne, ascii, continuation_iff, lead2_iff, lead3_iff, lead4_iff, low3_eq,
    low4_eq, low5_eq, low6_eq, fields2 (low6_lt _), fields3 (low6_lt _) (low6_lt _),
    fields4 (low6_lt _) (low6_lt _) (low6_lt _), ge_iff_le, IsContinuation]
  congr

/-- A text that starts with the shortest form of a code point. -/
theorem reads_of_word {cp : Nat} {word : Bytes} (point : IsCodePoint cp)
    (spelled : utf8Word cp = word) (rest : Bytes) :
    IsCodePoint cp ∧ utf8Word cp <+: word ++ rest ∧ word.length = (utf8Word cp).length := by
  rw [spelled]
  exact ⟨point, List.prefix_append word rest, rfl⟩

section Forms

variable {c s1 s2 s3 : Byte}

/-- The bits of a two-byte form spell the code point with these two bytes. -/
theorem utf8Word_of_two (lead : 0xC0 ≤ c.toNat ∧ c.toNat < 0xE0) (tag1 : IsContinuation s1)
    (shortest : 0x80 ≤ c.toNat % 32 * 64 + s1.toNat % 64) :
    utf8Word (c.toNat % 32 * 64 + s1.toNat % 64) = [c, s1] := by
  unfold IsContinuation at tag1
  obtain ⟨b0, b1, spelled, value0, value1⟩ := utf8Word_two shortest (by omega)
  obtain rfl : b0 = c := UInt8.toNat_inj.mp (by omega)
  obtain rfl : b1 = s1 := UInt8.toNat_inj.mp (by omega)
  exact spelled

theorem utf8Word_of_three (lead : 0xE0 ≤ c.toNat ∧ c.toNat < 0xF0) (tag1 : IsContinuation s1)
    (tag2 : IsContinuation s2)
    (shortest : 0x800 ≤ c.toNat % 16 * 4096 + s1.toNat % 64 * 64 + s2.toNat % 64) :
    utf8Word (c.toNat % 16 * 4096 + s1.toNat % 64 * 64 + s2.toNat % 64) = [c, s1, s2] := by
  unfold IsContinuation at tag1 tag2
  obtain ⟨b0, b1, b2, spelled, value0, value1, value2⟩ := utf8Word_three shortest (by omega)
  obtain rfl : b0 = c := UInt8.toNat_inj.mp (by omega)
  obtain rfl : b1 = s1 := UInt8.toNat_inj.mp (by omega)
  obtain rfl : b2 = s2 := UInt8.toNat_inj.mp (by omega)
  exact spelled

theorem utf8Word_of_four (lead : 0xF0 ≤ c.toNat ∧ c.toNat < 0xF8) (tag1 : IsContinuation s1)
    (tag2 : IsContinuation s2) (tag3 : IsContinuation s3)
    (long : 0x10000 ≤
      c.toNat % 8 * 262144 + s1.toNat % 64 * 4096 + s2.toNat % 64 * 64 + s3.toNat % 64)
    (point : IsCodePoint
      (c.toNat % 8 * 262144 + s1.toNat % 64 * 4096 + s2.toNat % 64 * 64 + s3.toNat % 64)) :
    utf8Word (c.toNat % 8 * 262144 + s1.toNat % 64 * 4096 + s2.toNat % 64 * 64 + s3.toNat % 64) =
      [c, s1, s2, s3] := by
  unfold IsContinuation at tag1 tag2 tag3
  obtain ⟨b0, b1, b2, b3, spelled, value0, value1, value2, value3⟩ := utf8Word_four long point
  -- the digits in base 64 are the fields again
  obtain ⟨digit0, digit1, digit2, digit3⟩ := digits4 (low6_lt s1) (low6_lt s2) (low6_lt s3)
  rw [digit0] at value0
  rw [digit1] at value1
  rw [digit2] at value2
  rw [digit3] at value3
  clear digit0 digit1 digit2 digit3 long point
  obtain rfl : b0 = c := UInt8.toNat_inj.mp (by omega)
  obtain rfl : b1 = s1 := UInt8.toNat_inj.mp (by omega)
  obtain rfl : b2 = s2 := UInt8.toNat_inj.mp (by omega)
  obtain rfl : b3 = s3 := UInt8.toNat_inj.mp (by omega)
  exact spelled

variable {cp n : Nat}

theorem reads_two (lead : 0xC0 ≤ c.toNat ∧ c.toNat < 0xE0) (tag1 : IsContinuation s1)
    (read : (if 0x80 ≤ c.toNat % 32 * 64 + s1.toNat % 64 then
      some (c.toNat % 32 * 64 + s1.toNat % 64, 2) else none) = some (cp, n)) (tail : Bytes) :
    IsCodePoint cp ∧ utf8Word cp <+: c :: s1 :: tail ∧ n = (utf8Word cp).length := by
  split at read
  · rename_i shortest
    cases read
    exact reads_of_word (by unfold IsCodePoint; omega) (utf8Word_of_two lead tag1 shortest) tail
  · cases read

theorem reads_three (lead : 0xE0 ≤ c.toNat ∧ c.toNat < 0xF0) (tag1 : IsContinuation s1)
    (tag2 : IsContinuation s2)
    (read : (if 0x800 ≤ c.toNat % 16 * 4096 + s1.toNat % 64 * 64 + s2.toNat % 64 then
      some (c.toNat % 16 * 4096 + s1.toNat % 64 * 64 + s2.toNat % 64, 3) else none) =
        some (cp, n)) (tail : Bytes) :
    IsCodePoint cp ∧ utf8Word cp <+: c :: s1 :: s2 :: tail ∧ n = (utf8Word cp).length := by
  split at read
  · rename_i shortest
    cases read
    exact reads_of_word (by unfold IsCodePoint; omega) (utf8Word_of_three lead tag1 tag2 shortest)
      tail
  · cases read

theorem reads_four (lead : 0xF0 ≤ c.toNat ∧ c.toNat < 0xF8) (tag1 : IsContinuation s1)
    (tag2 : IsContinuation s2) (tag3 : IsContinuation s3)
    (read : (if 0x10000 ≤ c.toNat % 8 * 262144 + s1.toNat % 64 * 4096 + s2.toNat % 64 * 64 +
          s3.toNat % 64 ∧ c.toNat % 8 * 262144 + s1.toNat % 64 * 4096 + s2.toNat % 64 * 64 +
          s3.toNat % 64 ≤ 0x10FFFF then
        some (c.toNat % 8 * 262144 + s1.toNat % 64 * 4096 + s2.toNat % 64 * 64 + s3.toNat % 64, 4)
      else none) = some (cp, n)) (tail : Bytes) :
    IsCodePoint cp ∧ utf8Word cp <+: c :: s1 :: s2 :: s3 :: tail ∧
      n = (utf8Word cp).length := by
  split at read
  · rename_i range
    cases read
    have point : IsCodePoint (c.toNat % 8 * 262144 + s1.toNat % 64 * 4096 +
        s2.toNat % 64 * 64 + s3.toNat % 64) := by
      unfold IsCodePoint
      omega
    exact reads_of_word point (utf8Word_of_four lead tag1 tag2 tag3 range.1 point) tail
  · cases read

end Forms

/-- What is read is the shortest form of a code point. -/
theorem tenUtf8DecodeOne_sound {text : Bytes} {cp n : Nat}
    (read : tenUtf8DecodeOne text = some (cp, n)) :
    IsCodePoint cp ∧ utf8Word cp <+: text ∧ n = (utf8Word cp).length := by
  cases text with
  | nil => cases read
  | cons c tail =>
      have below := c.toNat_lt
      rw [tenUtf8DecodeOne_cons] at read
      dsimp only at read
      split at read
      · rename_i one
        cases read
        obtain ⟨b0, spelled, value⟩ := utf8Word_one one
        obtain rfl : b0 = c := UInt8.toNat_inj.mp value
        exact reads_of_word (by unfold IsCodePoint; omega) spelled tail
      split at read
      · rename_i shape
        obtain ⟨lead, long, tag1⟩ := shape
        obtain ⟨s1, tail, rfl⟩ := List.exists_cons_of_length_pos (l := tail) (by omega)
        exact reads_two lead tag1 read tail
      split at read
      · rename_i shape
        obtain ⟨lead, long, tag1, tag2⟩ := shape
        obtain ⟨s1, tail, rfl⟩ := List.exists_cons_of_length_pos (l := tail) (by omega)
        rw [List.length_cons] at long
        obtain ⟨s2, tail, rfl⟩ := List.exists_cons_of_length_pos (l := tail) (by omega)
        exact reads_three lead tag1 tag2 read tail
      split at read
      · rename_i shape
        obtain ⟨lead, long, tag1, tag2, tag3⟩ := shape
        obtain ⟨s1, tail, rfl⟩ := List.exists_cons_of_length_pos (l := tail) (by omega)
        rw [List.length_cons] at long
        obtain ⟨s2, tail, rfl⟩ := List.exists_cons_of_length_pos (l := tail) (by omega)
        rw [List.length_cons] at long
        obtain ⟨s3, tail, rfl⟩ := List.exists_cons_of_length_pos (l := tail) (by omega)
        exact reads_four lead tag1 tag2 tag3 read tail
      · cases read

/-- The shortest form of a code point is read, whatever follows it. -/
theorem tenUtf8DecodeOne_word {cp : Nat} (point : IsCodePoint cp) (rest : Bytes) :
    tenUtf8DecodeOne (utf8Word cp ++ rest) = some (cp, (utf8Word cp).length) := by
  rcases Nat.lt_or_ge cp 0x80 with one | more
  · obtain ⟨b0, word, value⟩ := utf8Word_one one
    rw [word, List.singleton_append, tenUtf8DecodeOne_cons]
    dsimp only
    rw [if_pos (by omega), value]
    rfl
  rcases Nat.lt_or_ge cp 0x800 with two | more
  · obtain ⟨b0, b1, word, value0, value1⟩ := utf8Word_two more two
    have tag1 : IsContinuation b1 := by
      unfold IsContinuation
      omega
    have parts : b0.toNat % 32 * 64 + b1.toNat % 64 = cp := by omega
    rw [word, List.cons_append, List.singleton_append, tenUtf8DecodeOne_cons]
    simp only [List.getD_cons_zero, List.length_cons]
    rw [if_neg (by omega), if_pos ⟨by omega, by omega, tag1⟩, parts, if_pos (by omega)]
    rfl
  rcases Nat.lt_or_ge cp 0x10000 with three | more
  · obtain ⟨b0, b1, b2, word, value0, value1, value2⟩ := utf8Word_three more three
    have tag1 : IsContinuation b1 := by
      unfold IsContinuation
      omega
    have tag2 : IsContinuation b2 := by
      unfold IsContinuation
      omega
    have parts : b0.toNat % 16 * 4096 + b1.toNat % 64 * 64 + b2.toNat % 64 = cp := by omega
    rw [word, List.cons_append, List.cons_append, List.singleton_append, tenUtf8DecodeOne_cons]
    simp only [List.getD_cons_zero, List.getD_cons_succ, List.length_cons]
    rw [if_neg (by omega), if_neg (by omega), if_pos ⟨by omega, by omega, tag1, tag2⟩, parts,
      if_pos (by omega)]
    rfl
  · obtain ⟨b0, b1, b2, b3, word, value0, value1, value2, value3⟩ := utf8Word_four more point
    unfold IsCodePoint at point
    have tag1 : IsContinuation b1 := by
      unfold IsContinuation
      omega
    have tag2 : IsContinuation b2 := by
      unfold IsContinuation
      omega
    have tag3 : IsContinuation b3 := by
      unfold IsContinuation
      omega
    have parts : b0.toNat % 8 * 262144 + b1.toNat % 64 * 4096 + b2.toNat % 64 * 64 +
        b3.toNat % 64 = cp := by omega
    rw [word, List.cons_append, List.cons_append, List.cons_append, List.singleton_append,
      tenUtf8DecodeOne_cons]
    simp only [List.getD_cons_zero, List.getD_cons_succ, List.length_cons]
    rw [if_neg (by omega), if_neg (by omega), if_neg (by omega),
      if_pos ⟨by omega, by omega, tag1, tag2, tag3⟩, parts, if_pos (by omega)]
    rfl

/-- `ten__utf8_decode_one` reads the shortest forms of code points, surrogates
included. -/
theorem tenUtf8DecodeOne_reads : Reads IsCodePoint utf8Word tenUtf8DecodeOne where
  nonempty _ := utf8Word_ne_nil _
  next_iff := by
    intro text cp n
    constructor
    · exact tenUtf8DecodeOne_sound
    · rintro ⟨point, ⟨rest, rfl⟩, rfl⟩
      exact tenUtf8DecodeOne_word point rest

section Units

theorem high_iff {u : UInt16} : u ≥ 0xD800 ∧ u ≤ 0xDBFF ↔ IsHighUnit u := by
  rw [ge_iff_le, UInt16.le_iff_toNat_le, UInt16.le_iff_toNat_le]
  exact Iff.rfl

theorem low_iff {u : UInt16} : u ≥ 0xDC00 ∧ u ≤ 0xDFFF ↔ IsLowUnit u := by
  rw [ge_iff_le, UInt16.le_iff_toNat_le, UInt16.le_iff_toNat_le]
  exact Iff.rfl

theorem not_low_iff {u : UInt16} : u < 0xDC00 ∨ u > 0xDFFF ↔ ¬ IsLowUnit u := by
  rw [gt_iff_lt, UInt16.lt_iff_toNat_lt, UInt16.lt_iff_toNat_lt, IsLowUnit, not_and_or,
    Nat.not_le, Nat.not_le]
  exact Iff.rfl

theorem point_eq (high low : Nat) :
    0x10000 + (high - 0xD800) <<< 10 + (low - 0xDC00) = surrogatePoint high low := by
  rw [Nat.shiftLeft_eq]
  rfl

/-- `ten_utf16_to_utf8` reads a pair of surrogates. -/
theorem tenUtf16DecodeOne_pair {high low : UInt16} (isHigh : IsHighUnit high)
    (isLow : IsLowUnit low) (rest : List UInt16) :
    tenUtf16DecodeOne (high :: low :: rest) = some (surrogatePoint high.toNat low.toNat, 2) := by
  unfold tenUtf16DecodeOne
  dsimp only
  rw [if_pos (high_iff.mpr isHigh), if_neg (not_low_iff.not.mpr (not_not_intro isLow)), point_eq]

/-- It reads a unit that is no surrogate. -/
theorem tenUtf16DecodeOne_single {u : UInt16} (notHigh : ¬ IsHighUnit u) (notLow : ¬ IsLowUnit u)
    (rest : List UInt16) : tenUtf16DecodeOne (u :: rest) = some (u.toNat, 1) := by
  unfold tenUtf16DecodeOne
  dsimp only
  rw [if_neg (high_iff.not.mpr notHigh), if_neg (low_iff.not.mpr notLow)]

/-- It reads nothing else. -/
theorem tenUtf16DecodeOne_cases {text : List UInt16} {cp n : Nat}
    (read : tenUtf16DecodeOne text = some (cp, n)) :
    (∃ high low rest, text = high :: low :: rest ∧ IsHighUnit high ∧ IsLowUnit low ∧
      surrogatePoint high.toNat low.toNat = cp ∧ n = 2) ∨
    (∃ u rest, text = u :: rest ∧ ¬ IsHighUnit u ∧ ¬ IsLowUnit u ∧ u.toNat = cp ∧ n = 1) := by
  cases text with
  | nil => cases read
  | cons u rest =>
      unfold tenUtf16DecodeOne at read
      dsimp only at read
      split at read
      · rename_i isHigh
        cases rest with
        | nil => cases read
        | cons next rest =>
            dsimp only at read
            split at read
            · cases read
            · rename_i isLow
              rw [not_low_iff, not_not] at isLow
              rw [point_eq] at read
              obtain ⟨value, count⟩ := Prod.mk.inj (Option.some.inj read)
              exact .inl ⟨u, next, rest, rfl, high_iff.mp isHigh, isLow, value, count.symm⟩
      · rename_i notHigh
        split at read
        · cases read
        · rename_i notLow
          cases read
          exact .inr ⟨u, rest, rfl, high_iff.not.mp notHigh, low_iff.not.mp notLow, rfl, rfl⟩

/-- The decoder of `ten_utf16_to_utf8` reads the UTF-16 forms of characters. -/
theorem tenUtf16DecodeOne_reads : Reads Nat.isValidChar utf16Word tenUtf16DecodeOne where
  nonempty _ := utf16Word_ne_nil _
  next_iff := by
    intro text cp n
    constructor
    · intro read
      rcases tenUtf16DecodeOne_cases read with
        ⟨high, low, rest, rfl, isHigh, isLow, value, rfl⟩ |
          ⟨u, rest, rfl, notHigh, notLow, value, rfl⟩
      · rw [← value, utf16Word_surrogatePoint isHigh isLow]
        exact ⟨isValidChar_surrogatePoint isHigh isLow, List.prefix_append [high, low] rest, rfl⟩
      · rw [← value, utf16Word_unit]
        exact ⟨isValidChar_unit notHigh notLow, List.prefix_append [u] rest, rfl⟩
    · rintro ⟨scalar, ⟨rest, rfl⟩, rfl⟩
      rcases Nat.lt_or_ge 0xFFFF cp with large | small
      · obtain ⟨high, low, isHigh, isLow, word, value⟩ :=
          utf16Word_pair large (isValidChar_iff.mp scalar).1
        rw [word]
        change tenUtf16DecodeOne (high :: low :: rest) = _
        rw [tenUtf16DecodeOne_pair isHigh isLow, value]
        rfl
      · obtain ⟨u, notHigh, notLow, word, value⟩ := utf16Word_single small scalar
        rw [word]
        change tenUtf16DecodeOne (u :: rest) = _
        rw [tenUtf16DecodeOne_single notHigh notLow, value]
        rfl

/-- The second loop reads the same as the first. -/
theorem tenUtf16DecodeChecked_of_decodeOne {text : List UInt16} {hit : Nat × Nat}
    (read : tenUtf16DecodeOne text = some hit) : tenUtf16DecodeChecked text = some hit := by
  obtain ⟨cp, n⟩ := hit
  rcases tenUtf16DecodeOne_cases read with
    ⟨high, low, rest, rfl, isHigh, isLow, value, rfl⟩ | ⟨u, rest, rfl, notHigh, notLow, value, rfl⟩
  · unfold tenUtf16DecodeChecked
    dsimp only
    rw [if_pos (high_iff.mpr isHigh), point_eq, value]
  · unfold tenUtf16DecodeChecked
    dsimp only
    rw [if_neg (high_iff.not.mpr notHigh), value]

theorem tenUtf16Units_eq (cp : Nat) : tenUtf16Units cp = utf16Word cp := by
  rw [tenUtf16Units, utf16Word]
  have low : ∀ v : Nat, v &&& 0x3FF = v % 0x400 := fun v => Nat.and_two_pow_sub_one_eq_mod v 10
  simp only [Nat.shiftRight_eq_div_pow, low, gt_iff_lt, Nat.reducePow]

theorem tenUtf8Bytes_eq {cp : Nat} (point : IsCodePoint cp) : tenUtf8Bytes cp = utf8Word cp :=
  utf8Bits_eq point

end Units

end Dotten
