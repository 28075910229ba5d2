/-
Module: Dotten.Json.JsonStrings
Layer: Json
Purpose: The dialect of JSON that the parser of json.c reads, and the string
  literals of that dialect: one pass of the scanning loop reads one character,
  and the bytes it appends are the bytes the character denotes.
Imports: Dotten.Json.JsonGrammar, Dotten.Json.TenJsonParser,
  Dotten.Containers.TenStringPieces, Dotten.Library.Utf
Main exports: Dialect.accepted, Dialect.Within, wellFormed_within_accepted,
  tenJsonStringItem_complete, tenJsonStringItem_sound, KeptChars,
  tenJsonParseString_eq, tenJsonParseString_sound
-/
import Dotten.Json.JsonGrammar
import Dotten.Json.TenJsonParser
import Dotten.Containers.TenStringPieces
import Dotten.Library.Utf

namespace Dotten

open Dotten.Library

/-- The dialect of the parser: numbers are whatever `strtod` converts from a
minus sign or a digit on, any byte may stand unescaped in a string, and a low
surrogate may be escaped alone. -/
def Dialect.accepted : Dialect where
  number token := isSubjectSequence token = true ∧
    ∃ b rest, token = b :: rest ∧ (b = ascii '-' ∨ isDigit b = true)
  raw b := b ≠ 0
  unit u := ¬ IsHighSurrogate u
  encode u := (CString.ofMemory (tenJsonCodepointBytes u ++ [0])).bytes

/-- Every text of `g` is one of `h`, with the same meaning. -/
structure Dialect.Within (g h : Dialect) : Prop where
  number : ∀ token, g.number token → h.number token
  raw : ∀ b, g.raw b → h.raw b
  unit : ∀ quad : HexQuad, g.unit quad.unit →
    h.unit quad.unit ∧ g.encode quad.unit = h.encode quad.unit
  pair : ∀ high low : HexQuad, IsHighSurrogate high.unit → IsLowSurrogate low.unit →
    g.encode (surrogatePair high.unit low.unit) = h.encode (surrogatePair high.unit low.unit)

section Within

variable {g h : Dialect}

theorem CharText.mono (within : g.Within h) {text content : Bytes}
    (char : CharText g text content) : CharText h text content := by
  cases char with
  | raw allowed notQuote notBackslash => exact .raw (within.raw _ allowed) notQuote notBackslash
  | escape listed => exact .escape listed
  | unit quad allowed =>
      obtain ⟨allowed', same⟩ := within.unit quad allowed
      rw [same]
      exact .unit quad allowed'
  | pair high low isHigh isLow =>
      rw [within.pair high low isHigh isLow]
      exact .pair high low isHigh isLow

theorem CharsText.mono (within : g.Within h) {text content : Bytes}
    (chars : CharsText g text content) : CharsText h text content := by
  induction chars with
  | nil => exact .nil
  | cons char _ inductionHypothesis => exact .cons (char.mono within) inductionHypothesis

theorem Derives.mono (within : g.Within h) {phrase : Phrase} {text : Bytes}
    (derives : Derives g phrase text) : Derives h phrase text := by
  induction derives with
  | litNull => exact .litNull
  | litTrue => exact .litTrue
  | litFalse => exact .litFalse
  | number allowed => exact .number (within.number _ allowed)
  | string chars => exact .string (chars.mono within)
  | emptyArray space => exact .emptyArray space
  | array _ elements => exact .array elements
  | emptyObject space => exact .emptyObject space
  | object _ list => exact .object list
  | element before after _ value => exact .element before after value
  | elements before after _ _ value rest => exact .elements before after value rest
  | member before beforeColon beforeValue after chars _ value =>
      exact .member before beforeColon beforeValue after (chars.mono within) value
  | members before beforeColon beforeValue after chars _ _ value rest =>
      exact .members before beforeColon beforeValue after (chars.mono within) value rest

theorem JsonText.mono (within : g.Within h) {tree : JsonTree Bytes} {text : Bytes}
    (renders : JsonText g tree text) : JsonText h tree text := by
  cases renders with
  | intro before after value => exact .intro before after (value.mono within)

/-- The strings of a dialect do not depend on its numbers. -/
theorem CharsText.withNumber {g : Dialect} {number : Bytes → Prop} {text content : Bytes}
    (chars : CharsText g text content) : CharsText { g with number } text content := by
  induction chars with
  | nil => exact .nil
  | cons char _ inductionHypothesis =>
      refine .cons ?_ inductionHypothesis
      cases char with
      | raw allowed notQuote notBackslash => exact .raw allowed notQuote notBackslash
      | escape listed => exact .escape listed
      | unit quad allowed => exact CharText.unit (g := { g with number }) quad allowed
      | pair high low isHigh isLow =>
          exact CharText.pair (g := { g with number }) high low isHigh isLow

end Within

section Hexadecimal

/-- The digit test and the digit value of the code. -/
theorem tenJsonHexDigit_eq : ∀ b : Byte,
    tenJsonHexDigit b = if isHexDigit b then some (hexValue b) else none := by
  apply forall_byte
  decide

theorem hexValue_lt : ∀ b : Byte, isHexDigit b = true → hexValue b < 16 := by
  apply forall_byte
  decide

/-- Shifting a digit in from the right. -/
theorem shift_or_digit (x i : Nat) {d : Nat} (digit : d < 16) :
    x <<< (i + 4) ||| d <<< i = (x * 16 + d) <<< i := by
  have small : d <<< i < 2 ^ (i + 4) := by
    rw [Nat.shiftLeft_eq, Nat.pow_add, Nat.mul_comm]
    exact Nat.mul_lt_mul_of_pos_left (by omega) (Nat.two_pow_pos i)
  rw [← Nat.shiftLeft_add_eq_or_of_lt small, Nat.shiftLeft_eq, Nat.shiftLeft_eq,
    Nat.shiftLeft_eq, Nat.pow_add]
  ring

theorem HexQuad.digits (quad : HexQuad) :
    isHexDigit quad.d0 = true ∧ isHexDigit quad.d1 = true ∧ isHexDigit quad.d2 = true ∧
      isHexDigit quad.d3 = true := by
  have valid := quad.valid
  simp only [List.mem_cons, List.not_mem_nil, or_false, forall_eq_or_imp, forall_eq] at valid
  exact valid

theorem HexQuad.unit_lt (quad : HexQuad) : quad.unit < 0x10000 := by
  obtain ⟨h0, h1, h2, h3⟩ := quad.digits
  have := hexValue_lt _ h0
  have := hexValue_lt _ h1
  have := hexValue_lt _ h2
  have := hexValue_lt _ h3
  unfold HexQuad.unit
  omega

theorem tenJsonParseHex4_quad (quad : HexQuad) :
    tenJsonParseHex4 quad.d0 quad.d1 quad.d2 quad.d3 = some quad.unit := by
  obtain ⟨h0, h1, h2, h3⟩ := quad.digits
  simp only [tenJsonParseHex4, tenJsonHexDigit_eq, h0, h1, h2, h3, if_true]
  rw [shift_or_digit _ 8 (hexValue_lt _ h1), shift_or_digit _ 4 (hexValue_lt _ h2)]
  have last := shift_or_digit
    ((hexValue quad.d0 * 16 + hexValue quad.d1) * 16 + hexValue quad.d2) 0 (hexValue_lt _ h3)
  rw [Nat.zero_add, Nat.shiftLeft_zero, Nat.shiftLeft_zero] at last
  rw [last]
  rfl

/-- Four bytes that the code reads as a unit are a quad of digits. -/
theorem exists_quad_of_parseHex4 {d0 d1 d2 d3 : Byte} {unit : Nat}
    (parsed : tenJsonParseHex4 d0 d1 d2 d3 = some unit) :
    ∃ quad : HexQuad, quad.bytes = [d0, d1, d2, d3] ∧ quad.unit = unit := by
  have valid : ∀ d ∈ [d0, d1, d2, d3], isHexDigit d = true := by
    intro d member
    apply Decidable.byContradiction
    intro notHex
    rw [Bool.not_eq_true] at notHex
    have failed : tenJsonHexDigit d = none := by
      rw [tenJsonHexDigit_eq, notHex]
      rfl
    rw [tenJsonParseHex4] at parsed
    simp only [List.mem_cons, List.not_mem_nil, or_false] at member
    rcases member with rfl | rfl | rfl | rfl <;> simp [failed] at parsed
  have read := tenJsonParseHex4_quad ⟨d0, d1, d2, d3, valid⟩
  exact ⟨⟨d0, d1, d2, d3, valid⟩, rfl, Option.some.inj (read.symm.trans parsed)⟩

end Hexadecimal

section CodePoints

/-- The code's encoder on the code points of Unicode. -/
theorem tenJsonCodepointBytes_eq {cp : Nat} (point : IsCodePoint cp) :
    tenJsonCodepointBytes cp = utf8Word cp :=
  utf8Bits_eq point

/-- Only the null character is encoded with a zero byte. -/
theorem noNul_codepointBytes {cp : Nat} (positive : 0 < cp) (point : IsCodePoint cp) :
    (0 : Byte) ∉ tenJsonCodepointBytes cp := by
  rw [tenJsonCodepointBytes_eq point]
  exact zero_notMem_utf8Word positive point

/-- On scalar values the code's encoder is UTF-8. -/
theorem tenJsonCodepointBytes_eq_utf8 {cp : Nat} (below : cp < 0x110000)
    (notHigh : ¬ IsHighSurrogate cp) (notLow : ¬ IsLowSurrogate cp) :
    tenJsonCodepointBytes cp = utf8 cp := by
  have scalar : cp.isValidChar := by
    unfold IsHighSurrogate at notHigh
    unfold IsLowSurrogate at notLow
    unfold Nat.isValidChar
    omega
  rw [tenJsonCodepointBytes_eq below, utf8, utf8EncodeChar_eq scalar]

theorem surrogatePair_bounds {high low : Nat} (isHigh : IsHighSurrogate high)
    (isLow : IsLowSurrogate low) :
    0x10000 ≤ surrogatePair high low ∧ surrogatePair high low < 0x110000 := by
  unfold IsHighSurrogate at isHigh
  unfold IsLowSurrogate at isLow
  unfold surrogatePair
  omega

theorem accepted_encode_def (cp : Nat) : Dialect.accepted.encode cp =
    (CString.ofMemory (tenJsonCodepointBytes cp ++ [0])).bytes := rfl

theorem accepted_encode {cp : Nat} (positive : 0 < cp) (below : cp < 0x110000) :
    Dialect.accepted.encode cp = tenJsonCodepointBytes cp :=
  CString.takeWhile_append_nul (noNul_codepointBytes positive below) []

/-- The parser reads the texts of RFC 8259 whose strings are Unicode strings,
with their meaning. -/
theorem wellFormed_within_accepted : Dialect.wellFormed.Within Dialect.accepted := by
  constructor
  · intro token number
    have isNumber : IsJsonNumber token := number
    exact ⟨isNumber.isSubjectSequence, isNumber.head⟩
  · intro b printable zero
    rw [zero] at printable
    cases printable
  · intro quad allowed
    obtain ⟨nonzero, notHigh, notLow⟩ := allowed
    have below : quad.unit < 0x110000 := by
      have := quad.unit_lt
      omega
    refine ⟨notHigh, ?_⟩
    rw [accepted_encode (Nat.pos_of_ne_zero nonzero) below,
      tenJsonCodepointBytes_eq_utf8 below notHigh notLow, Dialect.wellFormed]
  · intro high low isHigh isLow
    have bounds := surrogatePair_bounds isHigh isLow
    rw [accepted_encode (by omega) bounds.2,
      tenJsonCodepointBytes_eq_utf8 bounds.2 (by unfold IsHighSurrogate; omega)
        (by unfold IsLowSurrogate; omega), Dialect.wellFormed]

end CodePoints

section OneCharacter

/-- The switch of the code is the table of the grammar. -/
theorem tenJsonSimpleEscape_eq_some_iff {letter b : Byte} :
    tenJsonSimpleEscape letter = some b ↔ (letter, b) ∈ escapeTable := by
  constructor
  · have listed : ∀ letter : Byte,
        (tenJsonSimpleEscape letter).all (fun b => decide ((letter, b) ∈ escapeTable)) = true := by
      apply forall_byte
      decide
    intro escape
    have here := listed letter
    rw [escape] at here
    exact of_decide_eq_true here
  · have read : ∀ pair ∈ escapeTable, tenJsonSimpleEscape pair.1 = some pair.2 :=
      forall_mem_of_all (by decide)
    exact read (letter, b)

theorem ofMemory_singleton {b : Byte} (nonzero : b ≠ 0) :
    (CString.ofMemory ([b] ++ [0])).bytes = [b] :=
  CString.takeWhile_append_nul (by simpa using Ne.symm nonzero) []

/-- A quad that gives a unit of its own. -/
theorem tenJsonUnicodeEscape_unit (quad : HexQuad) (notHigh : ¬ IsHighSurrogate quad.unit)
    (rest : Bytes) :
    tenJsonUnicodeEscape (quad.bytes ++ rest) = some (tenJsonCodepointBytes quad.unit, rest) := by
  change tenJsonUnicodeEscape (quad.d0 :: quad.d1 :: quad.d2 :: quad.d3 :: rest) = _
  rw [tenJsonUnicodeEscape, tenJsonParseHex4_quad]
  exact if_neg notHigh

/-- Two quads that give a surrogate pair. -/
theorem tenJsonUnicodeEscape_pair (high low : HexQuad) (isHigh : IsHighSurrogate high.unit)
    (isLow : IsLowSurrogate low.unit) (rest : Bytes) :
    tenJsonUnicodeEscape (high.bytes ++ (ascii '\\' :: ascii 'u' :: low.bytes ++ rest)) =
      some (tenJsonCodepointBytes (surrogatePair high.unit low.unit), rest) := by
  change tenJsonUnicodeEscape (high.d0 :: high.d1 :: high.d2 :: high.d3 :: ascii '\\' ::
    ascii 'u' :: low.d0 :: low.d1 :: low.d2 :: low.d3 :: rest) = _
  rw [tenJsonUnicodeEscape, tenJsonParseHex4_quad]
  have inRange : 0xD800 ≤ high.unit ∧ high.unit ≤ 0xDBFF := isHigh
  simp only
  rw [if_pos inRange, if_neg (by simp), tenJsonParseHex4_quad]
  simp only
  rw [if_neg (by unfold IsLowSurrogate at isLow; omega), Nat.shiftLeft_eq]
  rfl

/-- One pass reads one character, and appends what it denotes. -/
theorem tenJsonStringItem_complete {text content : Bytes}
    (char : CharText Dialect.accepted text content) (rest : Bytes) :
    ∃ b tail buf, text = b :: tail ∧ b ≠ ascii '"' ∧
      tenJsonStringItem (text ++ rest) = some (buf, rest) ∧
      (CString.ofMemory (buf ++ [0])).bytes = content := by
  cases char with
  | raw allowed notQuote notBackslash =>
      refine ⟨_, _, _, rfl, notQuote, if_pos notBackslash, ?_⟩
      exact ofMemory_singleton allowed
  | escape listed =>
      rename_i letter b
      have nonzero : ∀ pair ∈ escapeTable, pair.2 ≠ 0 := forall_mem_of_all (by decide)
      refine ⟨_, _, [b], rfl, by decide, ?_, ofMemory_singleton (nonzero _ listed)⟩
      rw [List.cons_append, tenJsonStringItem.eq_def]
      simp only [ne_eq, not_true_eq_false, if_false, List.cons_append, List.nil_append,
        tenJsonSimpleEscape_eq_some_iff.mpr listed]
  | unit quad allowed =>
      refine ⟨_, _, tenJsonCodepointBytes quad.unit, rfl, by decide, ?_, rfl⟩
      rw [List.cons_append, tenJsonStringItem.eq_def]
      have notSimple : tenJsonSimpleEscape (ascii 'u') = none := by decide
      simp only [ne_eq, not_true_eq_false, if_false, List.cons_append, notSimple, if_true]
      exact tenJsonUnicodeEscape_unit quad allowed rest
  | pair high low isHigh isLow =>
      refine ⟨_, _, tenJsonCodepointBytes (surrogatePair high.unit low.unit), rfl, by decide, ?_,
        (accepted_encode_def _).symm⟩
      rw [List.cons_append, List.cons_append, tenJsonStringItem.eq_def]
      have notSimple : tenJsonSimpleEscape (ascii 'u') = none := by decide
      simp only [ne_eq, not_true_eq_false, if_false, List.cons_append, notSimple, if_true]
      have read := tenJsonUnicodeEscape_pair high low isHigh isLow rest
      rw [← List.append_assoc] at read
      exact read

/-- What `case 'u'` accepts is an escape of the dialect. -/
theorem tenJsonUnicodeEscape_sound {p buf rest : Bytes}
    (read : tenJsonUnicodeEscape p = some (buf, rest)) :
    ∃ text, p = text ++ rest ∧
      CharText Dialect.accepted (ascii '\\' :: ascii 'u' :: text)
        (CString.ofMemory (buf ++ [0])).bytes := by
  unfold tenJsonUnicodeEscape at read
  split at read
  · rename_i d0 d1 d2 d3 p
    split at read
    · cases read
    rename_i cp parsed
    obtain ⟨high, highBytes, rfl⟩ := exists_quad_of_parseHex4 parsed
    split at read
    · rename_i isHigh
      split at read
      · rename_i b u e0 e1 e2 e3 p
        split at read
        · cases read
        rename_i marked
        rw [not_or, not_not, not_not] at marked
        obtain ⟨rfl, rfl⟩ := marked
        split at read
        · cases read
        rename_i low lowParsed
        obtain ⟨low, lowBytes, rfl⟩ := exists_quad_of_parseHex4 lowParsed
        split at read
        · cases read
        rename_i inRange
        have isLow : IsLowSurrogate low.unit := by
          unfold IsLowSurrogate
          omega
        obtain ⟨rfl, rfl⟩ := Prod.mk.inj (Option.some.inj read)
        refine ⟨high.bytes ++ (ascii '\\' :: ascii 'u' :: low.bytes), ?_, ?_⟩
        · rw [highBytes, lowBytes]
          rfl
        · have char := CharText.pair (g := Dialect.accepted) high low isHigh isLow
          rw [accepted_encode_def] at char
          rw [Nat.shiftLeft_eq]
          exact char
      · cases read
    · rename_i notHigh
      cases read
      refine ⟨high.bytes, ?_, .unit high notHigh⟩
      rw [highBytes]
      rfl
  · cases read

/-- One pass accepts only a character of the dialect. -/
theorem tenJsonStringItem_sound {c : Byte} {p buf rest : Bytes} (notQuote : c ≠ ascii '"')
    (nonzero : c ≠ 0) (read : tenJsonStringItem (c :: p) = some (buf, rest)) :
    ∃ b text, c :: p = b :: (text ++ rest) ∧
      CharText Dialect.accepted (b :: text) (CString.ofMemory (buf ++ [0])).bytes := by
  unfold tenJsonStringItem at read
  simp only at read
  split at read
  · rename_i notBackslash
    cases read
    refine ⟨c, [], rfl, ?_⟩
    rw [ofMemory_singleton nonzero]
    exact .raw nonzero notQuote notBackslash
  rename_i backslash
  rw [not_not] at backslash
  subst backslash
  split at read
  · cases read
  rename_i letter p
  split at read
  · rename_i b simple
    cases read
    have listed := tenJsonSimpleEscape_eq_some_iff.mp simple
    have nonzero : ∀ pair ∈ escapeTable, pair.2 ≠ 0 := forall_mem_of_all (by decide)
    refine ⟨_, [letter], rfl, ?_⟩
    rw [ofMemory_singleton (nonzero _ listed)]
    exact .escape listed
  · split at read
    · rename_i isU
      subst isU
      obtain ⟨text, rfl, char⟩ := tenJsonUnicodeEscape_sound read
      exact ⟨_, ascii 'u' :: text, rfl, char⟩
    · cases read

end OneCharacter

section WholeString

variable {grants : Schedule} {world : World}

/-- The loop appends what the characters denote, one piece for each, up to the
closing quote. -/
theorem tenJsonParseChars_eq {text content : Bytes}
    (chars : CharsText Dialect.accepted text content) :
    ∃ pieces : List CString, (pieces.map CString.bytes).flatten = content ∧
      ∀ {steps : Nat} (out : TenString) (rest : Bytes), text.length < steps →
        tenJsonParseChars steps out (text ++ ascii '"' :: rest) =
          appendPieces out pieces >>= fun string => pure (some (string, rest)) := by
  induction chars with
  | nil =>
      refine ⟨[], rfl, ?_⟩
      intro steps out rest enough
      cases steps with
      | zero => omega
      | succ steps =>
          rw [List.nil_append, tenJsonParseChars, if_pos rfl, appendPieces, pure_bind]
  | cons char _ inductionHypothesis =>
      rename_i charText charContent texts contents _
      obtain ⟨pieces, contentRest, reads⟩ := inductionHypothesis
      have noNul : (0 : Byte) ∉ charContent := by
        obtain ⟨-, -, buf, -, -, -, denotes⟩ := tenJsonStringItem_complete char []
        rw [← denotes]
        exact CString.noNul _
      refine ⟨⟨charContent, noNul⟩ :: pieces, ?_, ?_⟩
      · rw [List.map_cons, List.flatten_cons, contentRest]
      intro steps out rest enough
      obtain ⟨b, tail, buf, rfl, notQuote, read, denotes⟩ :=
        tenJsonStringItem_complete char (texts ++ ascii '"' :: rest)
      have piece : CString.ofMemory (buf ++ [0]) = ⟨charContent, noNul⟩ :=
        CString.ext denotes
      cases steps with
      | zero => omega
      | succ steps =>
          have shorter : texts.length < steps := by
            simp only [List.cons_append, List.length_cons, List.length_append] at enough
            omega
          rw [List.append_assoc]
          rw [List.cons_append] at read ⊢
          rw [tenJsonParseChars, if_neg notQuote, read, appendPieces, bind_assoc, ← piece]
          dsimp only
          congr 1
          funext reply
          exact reads reply.2 rest shorter

/-- A string without its place in memory. -/
def TenString.unplaced (string : TenString) : TenString := { string with addr := 0 }

/-- What is kept of the characters of a string literal that are appended to a string:
an append that needs a larger block is left out when it is refused. -/
inductive KeptChars : TenString → Bytes → TenString → Prop where
  | nil {out : TenString} : KeptChars out [] out
  | cons {out last : TenString} {char piece text : Bytes} (answer : Bool)
      (denotes : CharText Dialect.accepted char piece)
      (kept : KeptChars (putPiece (fun _ => answer) (0, out) piece).2 text last) :
      KeptChars out (char ++ text) last

theorem KeptChars.chars {out last : TenString} {text : Bytes} (kept : KeptChars out text last) :
    ∃ content, CharsText Dialect.accepted text content := by
  induction kept with
  | nil => exact ⟨[], .nil⟩
  | cons _ denotes _ inductionHypothesis =>
      obtain ⟨content, chars⟩ := inductionHypothesis
      exact ⟨_, .cons denotes chars⟩

/-- An append asks for memory once at most, and does not depend on where the string
is. -/
theorem putPiece_unplaced (requests : Nat) (out : TenString) (piece : Bytes) :
    (putPiece grants (requests, out) piece).2.unplaced =
      (putPiece (fun _ => grants requests) (0, out.unplaced) piece).2 := by
  unfold putPiece TenString.unplaced
  dsimp only
  by_cases grows : out.length + (CString.ofMemory (piece ++ [0])).length + 1 > out.capacity
  · rw [if_pos grows, if_pos grows]
    cases grants requests <;> rfl
  · rw [if_neg grows, if_neg grows]

/-- The loop ends, and what it accepts are characters of the dialect. -/
theorem tenJsonParseChars_sound (steps : Nat) :
    ∀ {out : TenString} {world : World} {p : Bytes}, p.length < steps → (0 : Byte) ∉ p →
      out.Valid →
      Returns (tenJsonParseChars steps out p) grants world (fun reply _ =>
        ∀ string rest, reply = some (string, rest) → string.Valid ∧
          ∃ text, p = text ++ ascii '"' :: rest ∧
            KeptChars out.unplaced text string.unplaced) := by
  induction steps with
  | zero =>
      intro out world p enough
      omega
  | succ steps inductionHypothesis =>
      intro out world p enough noNul valid
      cases p with
      | nil =>
          rw [tenJsonParseChars, returns_pure]
          intro string rest result
          cases result
      | cons c p =>
          rw [tenJsonParseChars]
          rw [List.mem_cons, not_or] at noNul
          apply returns_ite
          · intro isQuote
            subst isQuote
            rw [returns_pure]
            intro string rest result
            cases result
            exact ⟨valid, [], rfl, .nil⟩
          · intro notQuote
            cases read : tenJsonStringItem (c :: p) with
            | none =>
                simp only [returns_pure]
                intro string rest result
                cases result
            | some item =>
                obtain ⟨buf, rest⟩ := item
                obtain ⟨b, text, split, char⟩ :=
                  tenJsonStringItem_sound notQuote (Ne.symm noNul.1) read
                obtain ⟨rfl, rfl⟩ := List.cons.inj split
                simp only [returns_bind]
                apply ((tenStringAppend_spec valid _).and (tenStringAppend_putPiece out _)).mono
                rintro ⟨rc, next⟩ after ⟨⟨-, -, -, outcome⟩, put⟩
                have nextValid : next.Valid := by
                  cases outcome with
                  | appended nextValid _ => exact nextValid
                  | refused _ => exact valid
                have shorter : rest.length < steps := by
                  simp only [List.length_cons, List.length_append] at enough
                  omega
                have restNoNul : (0 : Byte) ∉ rest := by
                  intro zero
                  exact noNul.2 (List.mem_append_right _ zero)
                apply (inductionHypothesis shorter restNoNul nextValid).mono
                intro reply last post string tail result
                obtain ⟨stringValid, texts, rfl, kept⟩ := post string tail result
                have placed := @putPiece_unplaced grants world.requests out
                  (CString.ofMemory (buf ++ [0])).bytes
                rw [← put] at placed
                rw [placed] at kept
                refine ⟨stringValid, _, ?_, .cons _ char kept⟩
                rw [List.append_assoc]
                rfl

/-- `ten__json_parse_string` on a string literal: an empty string, and the
pieces appended to it. -/
theorem tenJsonParseString_eq {text content : Bytes}
    (chars : CharsText Dialect.accepted text content) :
    ∃ pieces : List CString, (pieces.map CString.bytes).flatten = content ∧
      ∀ rest, tenJsonParseString (ascii '"' :: (text ++ ascii '"' :: rest)) = do
        let some out ← tenStringEmpty
          | return none
        let string ← appendPieces out pieces
        return some (string, rest) := by
  obtain ⟨pieces, denotes, reads⟩ := tenJsonParseChars_eq chars
  refine ⟨pieces, denotes, ?_⟩
  intro rest
  rw [tenJsonParseString, if_neg (by simp)]
  congr 1
  funext reply
  cases reply with
  | none => rfl
  | some out =>
      apply reads out rest
      simp only [List.length_append]
      omega

/-- `ten__json_parse_string` ends, and accepts string literals only. -/
theorem tenJsonParseString_sound {p : Bytes} (noNul : (0 : Byte) ∉ p) :
    Returns (tenJsonParseString p) grants world (fun reply _ =>
      ∀ string rest, reply = some (string, rest) → string.Valid ∧
        ∃ text, p = ascii '"' :: (text ++ ascii '"' :: rest) ∧
          KeptChars (emptyString 0) text string.unplaced) := by
  cases p with
  | nil =>
      rw [tenJsonParseString, returns_pure]
      intro string rest result
      cases result
  | cons c p =>
      rw [tenJsonParseString]
      rw [List.mem_cons, not_or] at noNul
      apply returns_ite
      · intro _
        rw [returns_pure]
        intro string rest result
        cases result
      · intro isQuote
        rw [not_not] at isQuote
        subst isQuote
        rw [returns_bind]
        apply tenStringEmpty_eq.mono
        rintro reply after (⟨-, rfl⟩ | ⟨-, rfl, -⟩)
        · simp only [returns_pure]
          intro string rest result
          cases result
        apply (tenJsonParseChars_sound (p.length + 1) (Nat.lt_succ_self _) noNul.2
          (emptyString_valid _)).mono
        intro reply last post string rest result
        obtain ⟨stringValid, text, rfl, kept⟩ := post string rest result
        exact ⟨stringValid, text, rfl, kept⟩

end WholeString

end Dotten
