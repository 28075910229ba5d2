/-
Module: Dotten.Encoding.Hex
Layer: Encoding
Purpose: The hex functions are inverse to each other, up to the case of the
  letters, on the texts that the decoder accepts.
Imports: Dotten.Encoding.TenHex, Dotten.Library.Bits
Main exports: IsHexDigit, IsHex, hexRoundTrip, hexAgain, tenHex_codec
-/
import Dotten.Encoding.TenHex
import Dotten.Library.Bits

namespace Dotten

open Dotten.Library

/-- A hexadecimal digit of either case. -/
def IsHexDigit (c : Byte) : Prop :=
  (ascii '0' ≤ c ∧ c ≤ ascii '9') ∨ (ascii 'a' ≤ c ∧ c ≤ ascii 'f') ∨
    (ascii 'A' ≤ c ∧ c ≤ ascii 'F')

instance (c : Byte) : Decidable (IsHexDigit c) := inferInstanceAs (Decidable (_ ∨ _))

/-- An even number of hexadecimal digits. -/
structure IsHex (text : Bytes) : Prop where
  even : 2 ∣ text.length
  digits : ∀ c ∈ text, IsHexDigit c

/-- Two hexadecimal digits. -/
structure HexPair.WellFormed (pair : HexPair) : Prop where
  high : IsHexDigit pair.c0
  low : IsHexDigit pair.c1

section Digits

/-- `ten__hex_value` fails for what is no digit. -/
theorem tenHexValue_neg_iff (c : Byte) : tenHexValue c < 0 ↔ ¬ IsHexDigit c := by
  revert c
  apply forall_byte
  decide

/-- A digit is written again in lower case. -/
theorem tenHexDigit_value {c : Byte} (digit : IsHexDigit c) :
    0 ≤ tenHexValue c ∧ tenHexValue c < 16 ∧
      tenHexDigit (tenHexValue c).toNat = lowerByte c := by
  revert c
  apply forall_byte
  decide

theorem tenHexValue_digit {value : Nat} (small : value < 16) :
    tenHexValue (tenHexDigit value) = value ∧ IsHexDigit (tenHexDigit value) := by
  have all : ∀ value : Fin 16, tenHexValue (tenHexDigit value.val) = value.val ∧
      IsHexDigit (tenHexDigit value.val) := by decide
  exact all ⟨value, small⟩

theorem zero_not_isHexDigit : ¬ IsHexDigit 0 := by decide

end Digits

section Pairs

variable {pairs : List HexPair} {text : Bytes}

/-- The decoder reads a text pair by pair. -/
theorem tenHexDecodeOne_reads :
    Reads HexPair.WellFormed HexPair.text tenHexDecodeOne where
  nonempty := by
    intro pair _
    exact List.cons_ne_nil _ _
  next_iff := by
    intro text pair n
    rcases text with _ | ⟨c0, _ | ⟨c1, rest⟩⟩
    iterate 2
      apply iff_of_false (by simp [tenHexDecodeOne])
      rintro ⟨-, starts, -⟩
      exact absurd starts.length_le (by simp [HexPair.text])
    have starts : pair.text <+: c0 :: c1 :: rest ↔ pair = ⟨c0, c1⟩ := by
      cases pair
      simp [HexPair.text, List.cons_prefix_cons]
    have rejected : HexPair.hi ⟨c0, c1⟩ < 0 ∨ HexPair.lo ⟨c0, c1⟩ < 0 ↔
        ¬ HexPair.WellFormed ⟨c0, c1⟩ := by
      rw [HexPair.hi, HexPair.lo, tenHexValue_neg_iff, tenHexValue_neg_iff, ← not_and_or, not_iff_not]
      exact ⟨fun both => ⟨both.1, both.2⟩, fun wellFormed => ⟨wellFormed.high, wellFormed.low⟩⟩
    rw [starts]
    unfold tenHexDecodeOne
    dsimp only
    split
    · rename_i fails
      apply iff_of_false (by simp)
      rintro ⟨wellFormed, rfl, -⟩
      exact rejected.mp fails wellFormed
    · rename_i passes
      have wellFormed := not_not.mp (rejected.not.mp passes)
      rw [Option.some.injEq, Prod.mk.injEq]
      constructor
      · rintro ⟨rfl, rfl⟩
        exact ⟨wellFormed, rfl, rfl⟩
      · rintro ⟨-, rfl, rfl⟩
        exact ⟨rfl, rfl⟩

theorem length_flatMap_hexText (pairs : List HexPair) :
    (pairs.flatMap HexPair.text).length = 2 * pairs.length := by
  simp [List.length_flatMap, HexPair.text, Nat.mul_comm]

/-- The texts of pairs are the hexadecimal ones. -/
theorem isHex_iff_spells :
    IsHex text ↔ ∃ pairs, Spells HexPair.WellFormed HexPair.text pairs text := by
  constructor
  · rintro ⟨⟨half, length⟩, digits⟩
    induction half generalizing text with
    | zero =>
        obtain rfl := List.eq_nil_of_length_eq_zero length
        exact ⟨[], spells_nil⟩
    | succ half inductionHypothesis =>
        rcases text with _ | ⟨c0, _ | ⟨c1, rest⟩⟩
        · simp at length
        · simp only [List.length_cons, List.length_nil] at length
          omega
        · simp only [List.forall_mem_cons] at digits
          obtain ⟨high, low, others⟩ := digits
          simp only [List.length_cons] at length
          obtain ⟨pairs, spells⟩ := inductionHypothesis others (by omega)
          exact ⟨⟨c0, c1⟩ :: pairs, spells.cons ⟨high, low⟩⟩
  · rintro ⟨pairs, wellFormed, rfl⟩
    constructor
    · exact ⟨pairs.length, length_flatMap_hexText pairs⟩
    · intro c member
      obtain ⟨pair, listed, inPair⟩ := List.mem_flatMap.mp member
      simp only [HexPair.text, List.mem_cons, List.not_mem_nil, or_false] at inPair
      rcases inPair with rfl | rfl
      · exact (wellFormed pair listed).high
      · exact (wellFormed pair listed).low

/-- A pair is the two halves of its byte. -/
theorem HexPair.WellFormed.encode_byte {pair : HexPair} (wellFormed : pair.WellFormed) :
    tenHexEncodeOne pair.byte = pair.text.map lowerByte := by
  obtain ⟨highLeast, highMost, high⟩ := tenHexDigit_value wellFormed.high
  obtain ⟨lowLeast, lowMost, low⟩ := tenHexDigit_value wellFormed.low
  have smallHigh : pair.hi.toNat < 16 := by
    unfold HexPair.hi
    omega
  have smallLow : pair.lo.toNat < 16 := by
    unfold HexPair.lo
    omega
  have value : pair.byte.toNat = pair.lo.toNat + pair.hi.toNat * 16 := by
    rw [HexPair.byte, or_low_bits _ 4 smallLow]
    exact UInt8.toNat_ofNat_of_lt' (by simp only [UInt8.size]; omega)
  have upper : pair.byte.toNat >>> 4 = pair.hi.toNat := by
    rw [value, Nat.shiftRight_eq_div_pow]
    omega
  have lower : pair.byte.toNat &&& 0xF = pair.lo.toNat := by
    rw [value, and_four_bits]
    omega
  rw [tenHexEncodeOne, upper, lower, HexPair.hi, HexPair.lo, high, low]
  rfl

/-- The two digits of a byte. -/
def bytePair (b : Byte) : HexPair := ⟨tenHexDigit (b.toNat >>> 4), tenHexDigit (b.toNat &&& 0xF)⟩

theorem byte_bytePair (b : Byte) : (bytePair b).WellFormed ∧ (bytePair b).byte = b := by
  have small := b.toNat_lt
  have upper : b.toNat >>> 4 < 16 := by
    rw [Nat.shiftRight_eq_div_pow]
    omega
  have lower : b.toNat &&& 0xF < 16 := by
    rw [and_four_bits]
    omega
  obtain ⟨high, isHigh⟩ := tenHexValue_digit upper
  obtain ⟨low, isLow⟩ := tenHexValue_digit lower
  refine ⟨⟨isHigh, isLow⟩, ?_⟩
  have halves : b.toNat >>> 4 <<< 4 ||| b.toNat &&& 0xF = b.toNat := by
    rw [or_low_bits _ 4 lower, and_four_bits, Nat.shiftRight_eq_div_pow]
    omega
  change UInt8.ofNat ((tenHexValue (tenHexDigit _)).toNat <<< 4 |||
    (tenHexValue (tenHexDigit _)).toNat) = b
  rw [high, low, Int.toNat_natCast, Int.toNat_natCast, halves, UInt8.ofNat_toNat]

/-- Bytes are encoded as the pairs of their digits. -/
theorem spells_encoded (data : Bytes) :
    Spells HexPair.WellFormed HexPair.text (data.map bytePair) (data.flatMap tenHexEncodeOne) where
  valid := by
    intro pair member
    obtain ⟨b, -, rfl⟩ := List.mem_map.mp member
    exact (byte_bytePair b).1
  text := by
    rw [List.flatMap_map]
    rfl

end Pairs

section Codec

variable {grants : Schedule} {world : World} {text : CString} {pairs : List HexPair}

theorem IsHex.noNul {text : Bytes} (hex : IsHex text) : (0 : Byte) ∉ text :=
  fun member => zero_not_isHexDigit (hex.digits 0 member)

/-- `ten_hex_encode`: two digits for each byte. -/
theorem tenHexEncode_spec (data : Bytes) :
    Returns (tenHexEncode (some data) data.length) grants world (fun reply _ =>
      (reply = none ∧ ¬ Ample grants) ∨
        ∃ text, reply = some text ∧ text.bytes = data.flatMap tenHexEncodeOne) := by
  have hex : IsHex (data.flatMap tenHexEncodeOne) :=
    isHex_iff_spells.mpr ⟨_, spells_encoded data⟩
  simp only [tenHexEncode, reduceCtorEq, false_and, if_false, Option.getD_some, List.take_length,
    returns_bind, returns_tenMalloc, returns_tenSetError, returns_pure]
  constructor
  · intro granted
    exact .inr ⟨_, rfl, CString.takeWhile_append_nul hex.noNul []⟩
  · intro refused
    exact .inl ⟨trivial, not_ample_of_refused refused⟩

/-- `ten_hex_decode` of the text of pairs: their bytes. -/
theorem tenHexDecode_of_spells
    (spells : Spells HexPair.WellFormed HexPair.text pairs text.bytes) :
    Returns (tenHexDecode (some text)) grants world (fun reply _ =>
      (reply = none ∧ ¬ Ample grants) ∨
        reply = some (pairs.map HexPair.byte, (pairs.map HexPair.byte).length)) := by
  have characters : text.length = 2 * pairs.length := by
    rw [CString.length, ← spells.text, length_flatMap_hexText]
  have enough : text.bytes.length ≤ text.length := Nat.le_refl _
  have written : pairs.foldl (fun out pair => out ++ [pair.byte]) [] = pairs.map HexPair.byte := by
    rw [List.foldl_append_eq_append, List.nil_append, ← List.flatMap_def, List.map_eq_flatMap]
  rw [tenHexDecode]
  apply returns_ite
  · intro odd
    omega
  intro even
  rw [returns_bind, returns_tenMalloc]
  constructor
  · intro granted
    dsimp only
    rw [tenHexDecodeOne_reads.scanWords_of_spells id enough spells, written]
    simp only [returns_bind, returns_tenSetError, returns_pure]
    right
    rw [List.length_map, characters, Nat.mul_div_cancel_left _ Nat.two_pos]
  · intro refused
    rw [returns_pure]
    exact .inl ⟨rfl, not_ample_of_refused refused⟩

/-- `ten_hex_decode` of any other text. -/
theorem tenHexDecode_of_not_hex (other : ¬ IsHex text.bytes) :
    Returns (tenHexDecode (some text)) grants world (fun reply _ => reply = none) := by
  have enough : text.bytes.length ≤ text.length := Nat.le_refl _
  rw [tenHexDecode]
  apply returns_ite
  · intro odd
    simp only [returns_bind, returns_tenSetError, returns_pure]
  intro even
  rw [returns_bind, returns_tenMalloc]
  constructor
  · intro granted
    dsimp only
    rw [tenHexDecodeOne_reads.scanWords_of_not_spells enough
      fun pairs spells => other (isHex_iff_spells.mpr ⟨pairs, spells⟩)]
    simp only [returns_bind, returns_tenSetError, returns_pure]
  · intro refused
    rw [returns_pure]

/-- Encoding, and decoding what was encoded. -/
def hexRoundTrip (data : Bytes) : Ten (Option (Bytes × Nat)) := do
  let text ← tenHexEncode (some data) data.length
  tenHexDecode text

/-- Decoding, and encoding what was decoded. -/
def hexAgain (text : CString) : Ten (Option (Bytes × Nat) × Option CString) := do
  match ← tenHexDecode (some text) with
  | none => return (none, none)
  | some (data, size) =>
      let again ← tenHexEncode (some data) size
      return (some (data, size), again)

/-- What is encoded is decoded to the same bytes; and the texts that are decoded
are those of an even number of digits, which are encoded again in lower
case. -/
theorem tenHex_codec {grants : Schedule} (ample : Ample grants) (world : World) (data : Bytes)
    (text : CString) :
    Returns (hexRoundTrip data) grants world (fun back _ => back = some (data, data.length)) ∧
      Returns (hexAgain text) grants world (fun (decoded, again) _ =>
        (decoded.isSome = true ↔ IsHex text.bytes) ∧
          (decoded.isSome = true →
            again.map CString.bytes = some (text.bytes.map lowerByte))) := by
  constructor
  · rw [hexRoundTrip, returns_bind]
    apply (tenHexEncode_spec data).mono
    rintro reply _ (⟨-, shortage⟩ | ⟨encoded, rfl, bytes⟩)
    · exact absurd ample shortage
    have spells := spells_encoded data
    rw [← bytes] at spells
    apply (tenHexDecode_of_spells spells).mono
    rintro back _ (⟨-, shortage⟩ | rfl)
    · exact absurd ample shortage
    have same : (data.map bytePair).map HexPair.byte = data := by
      rw [List.map_map]
      exact (List.map_congr_left fun b _ => (byte_bytePair b).2).trans (List.map_id data)
    rw [same]
  · rw [hexAgain, returns_bind]
    by_cases hex : IsHex text.bytes
    · obtain ⟨pairs, spells⟩ := isHex_iff_spells.mp hex
      apply (tenHexDecode_of_spells spells).mono
      rintro decoded _ (⟨-, shortage⟩ | rfl)
      · exact absurd ample shortage
      simp only [returns_bind]
      apply (tenHexEncode_spec (pairs.map HexPair.byte)).mono
      rintro reply _ (⟨-, shortage⟩ | ⟨again, rfl, bytes⟩)
      · exact absurd ample shortage
      rw [returns_pure]
      refine ⟨iff_of_true rfl hex, fun _ => ?_⟩
      have lower : (pairs.map HexPair.byte).flatMap tenHexEncodeOne =
          (pairs.flatMap HexPair.text).map lowerByte := by
        rw [List.flatMap_map, List.map_flatMap]
        exact List.flatMap_congr fun pair listed => (spells.valid pair listed).encode_byte
      rw [Option.map_some, bytes, lower, spells.text]
    · apply (tenHexDecode_of_not_hex hex).mono
      rintro _ _ rfl
      rw [returns_pure]
      exact ⟨iff_of_false (by simp) hex, fun impossible => by cases impossible⟩

end Codec

/-- The bytes of `Ma`, and a text with letters of either case. -/
theorem tenHex_codec_letters :
    Returns (hexRoundTrip (asciiBytes ['M', 'a'])) (fun _ => true) default
        (fun back _ => back = some (asciiBytes ['M', 'a'], 2)) ∧
      Returns (hexAgain ⟨asciiBytes ['0', 'a', 'F', 'f'], by decide⟩) (fun _ => true) default
        (fun (decoded, again) _ =>
          (decoded.isSome = true ↔ IsHex (asciiBytes ['0', 'a', 'F', 'f'])) ∧
            (decoded.isSome = true → again.map CString.bytes =
              some ((asciiBytes ['0', 'a', 'F', 'f']).map lowerByte))) :=
  tenHex_codec ample_always default (asciiBytes ['M', 'a'])
    ⟨asciiBytes ['0', 'a', 'F', 'f'], by decide⟩

end Dotten
