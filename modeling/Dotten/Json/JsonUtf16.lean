/-
Module: Dotten.Json.JsonUtf16
Layer: Json
Purpose: The `u` escapes of string literals against the UTF-16 converter of
  encoding.c.  The parser asks of a high surrogate that a low one follows, and
  asks nothing of a low one.
Imports: Dotten.Json.JsonParserComplete, Dotten.Json.JsonParserSound,
  Dotten.Json.JsonPrinter, Dotten.Encoding.UtfConversions
Main exports: HexQuad.code, unitLiteral, tenJsonParse_unitLiteral_isSome,
  parseAndConvert, parseAndConvert_agree_iff
-/
import Dotten.Json.JsonParserComplete
import Dotten.Json.JsonParserSound
import Dotten.Json.JsonPrinter
import Dotten.Encoding.UtfConversions

namespace Dotten

open Dotten.Library

namespace HexQuad

/-- The unit as a `uint16_t`. -/
def code (quad : HexQuad) : UInt16 := UInt16.ofNat quad.unit

/-- The escape that spells the unit. -/
def escape (quad : HexQuad) : Bytes := ascii '\\' :: ascii 'u' :: quad.bytes

theorem code_toNat (quad : HexQuad) : quad.code.toNat = quad.unit :=
  toNat_ofNat_unit quad.unit_lt

theorem isHighUnit_code {quad : HexQuad} : IsHighUnit quad.code ↔ IsHighSurrogate quad.unit := by
  rw [IsHighUnit, code_toNat, IsHighSurrogate]

theorem isLowUnit_code {quad : HexQuad} : IsLowUnit quad.code ↔ IsLowSurrogate quad.unit := by
  rw [IsLowUnit, code_toNat, IsLowSurrogate]

theorem eq_of_bytes {quad other : HexQuad} (same : quad.bytes = other.bytes) : quad = other := by
  cases quad
  cases other
  simp only [bytes, List.cons.injEq, and_true] at same
  obtain ⟨rfl, rfl, rfl, rfl⟩ := same
  rfl

end HexQuad

/-! ### The literal -/

section Literal

variable {quads : List HexQuad}

theorem noNul_escape (quad : HexQuad) : (0 : Byte) ∉ quad.escape := by
  intro zero
  have notHex : isHexDigit 0 = false := by decide
  rcases List.mem_cons.mp zero with impossible | zero
  · exact absurd impossible (by decide)
  rcases List.mem_cons.mp zero with impossible | zero
  · exact absurd impossible (by decide)
  rw [quad.valid 0 zero] at notHex
  cases notHex

/-- The string literal that spells each unit as one escape. -/
def unitLiteral (quads : List HexQuad) : CString where
  bytes := ascii '"' :: (quads.flatMap HexQuad.escape ++ [ascii '"'])
  noNul := by
    have quote : (0 : Byte) ≠ ascii '"' := by decide
    simp only [List.mem_cons, List.mem_append, List.mem_flatMap, List.not_mem_nil, quote,
      false_or, or_false, not_exists, not_and]
    exact fun quad _ => noNul_escape quad

/-- The code points that the escapes of one character, or of a pair, may give. -/
def IsEscaped (cp : Nat) : Prop := IsCodePoint cp ∧ ¬ IsHighSurrogate cp

/-- Units whose high surrogates are paired spell escapable code points. -/
theorem spells_of_highsPaired {units : List UInt16} (paired : HighsPaired units) :
    ∃ points, Spells IsEscaped utf16Word points units := by
  have point : ∀ {unit : UInt16}, ¬ IsHighUnit unit → IsEscaped unit.toNat := by
    intro unit notHigh
    have small := unit.toNat_lt
    refine ⟨?_, notHigh⟩
    unfold IsCodePoint
    omega
  induction units using List.twoStepInduction with
  | nil => exact ⟨[], spells_nil⟩
  | singleton unit =>
      have notHigh : ¬ IsHighUnit unit := by
        intro isHigh
        obtain ⟨low, rest, impossible, -⟩ := (highsPaired_cons_of_high isHigh).mp paired
        cases impossible
      have none : Spells IsEscaped utf16Word [] [] := spells_nil
      have spells := none.cons (point notHigh)
      rw [utf16Word_unit] at spells
      exact ⟨_, spells⟩
  | cons_cons unit next units pairStep singleStep =>
      by_cases isHigh : IsHighUnit unit
      · obtain ⟨low, rest, same, isLow, rest⟩ := (highsPaired_cons_of_high isHigh).mp paired
        obtain ⟨rfl, rfl⟩ := List.cons.inj same
        obtain ⟨points, spells⟩ := pairStep rest
        have bounds := surrogatePoint_bounds isHigh isLow
        have escaped : IsEscaped (surrogatePoint unit.toNat next.toNat) :=
          ⟨bounds.2, by unfold IsHighSurrogate; omega⟩
        have longer := spells.cons escaped
        rw [utf16Word_surrogatePoint isHigh isLow] at longer
        exact ⟨_, longer⟩
      · obtain ⟨points, spells⟩ := singleStep next ((highsPaired_cons_of_not isHigh).mp paired)
        have longer := spells.cons (point isHigh)
        rw [utf16Word_unit] at longer
        exact ⟨_, longer⟩

/-- The escapes of a pair denote its code point. -/
theorem charText_escape_pair {high low : HexQuad} (isHigh : IsHighUnit high.code)
    (isLow : IsLowUnit low.code) :
    CharText Dialect.accepted (high.escape ++ low.escape)
      (utf8Word (surrogatePoint high.code.toNat low.code.toNat)) := by
  have bounds := surrogatePoint_bounds isHigh isLow
  have encoded : Dialect.accepted.encode (surrogatePair high.unit low.unit) =
      utf8Word (surrogatePoint high.code.toNat low.code.toNat) := by
    rw [HexQuad.code_toNat, HexQuad.code_toNat] at bounds ⊢
    exact (accepted_encode (by omega) bounds.2).trans (tenJsonCodepointBytes_eq bounds.2)
  rw [← encoded]
  exact .pair high low (HexQuad.isHighUnit_code.mp isHigh) (HexQuad.isLowUnit_code.mp isLow)

/-- Another escape denotes its unit, unless it is the null character. -/
theorem charText_escape {quad : HexQuad} (nonzero : quad.unit ≠ 0) (escaped : IsEscaped quad.unit) :
    CharText Dialect.accepted quad.escape (utf8Word quad.unit) := by
  have encoded : Dialect.accepted.encode quad.unit = utf8Word quad.unit :=
    (accepted_encode (Nat.pos_of_ne_zero nonzero) escaped.1).trans
      (tenJsonCodepointBytes_eq escaped.1)
  rw [← encoded]
  exact .unit quad escaped.2

/-- The content of a literal whose units spell escapable code points. -/
theorem charsText_of_spells {points : List Nat} (nonzero : ∀ quad ∈ quads, quad.unit ≠ 0)
    (spells : Spells IsEscaped utf16Word points (quads.map HexQuad.code)) :
    CharsText Dialect.accepted (quads.flatMap HexQuad.escape) (points.flatMap utf8Word) := by
  induction points generalizing quads with
  | nil =>
      obtain rfl : quads = [] := List.map_eq_nil_iff.mp spells.text.symm
      exact .nil
  | cons cp points inductionHypothesis =>
      obtain ⟨escaped, starts, rest⟩ := spells_cons_iff.mp spells
      rcases Nat.lt_or_ge 0xFFFF cp with large | small
      · obtain ⟨high, low, isHigh, isLow, word, rfl⟩ := utf16Word_pair large escaped.1
        rw [word] at starts rest
        rcases quads with _ | ⟨first, _ | ⟨second, quads⟩⟩
        · exact absurd (List.prefix_nil.mp starts) (by simp)
        · exact absurd starts.length_le (by simp)
        · rw [List.map_cons, List.map_cons, List.cons_prefix_cons, List.cons_prefix_cons] at starts
          obtain ⟨rfl, rfl, -⟩ := starts
          have nonzero := (List.forall_mem_cons.mp (List.forall_mem_cons.mp nonzero).2).2
          have chars := CharsText.cons (charText_escape_pair isHigh isLow)
            (inductionHypothesis nonzero rest)
          rw [List.append_assoc] at chars
          exact chars
      · have word : utf16Word cp = [UInt16.ofNat cp] := by
          rw [utf16Word, if_neg (by omega)]
        rw [word] at starts rest
        cases quads with
        | nil => exact absurd (List.prefix_nil.mp starts) (by simp)
        | cons first quads =>
            rw [List.map_cons, List.cons_prefix_cons] at starts
            obtain rfl : first.unit = cp := by
              rw [← HexQuad.code_toNat, ← starts.1]
              exact toNat_ofNat_unit (by omega)
            obtain ⟨positive, nonzero⟩ := List.forall_mem_cons.mp nonzero
            exact .cons (charText_escape positive escaped) (inductionHypothesis nonzero rest)

/-- Where a `u` escape stands in a literal, the escape of its first unit does. -/
theorem exists_first_of_escape {quad : HexQuad} {tail : Bytes}
    (split : quad.escape ++ tail = quads.flatMap HexQuad.escape ++ [ascii '"']) :
    ∃ rest, quads = quad :: rest ∧ tail = rest.flatMap HexQuad.escape ++ [ascii '"'] := by
  cases quads with
  | nil => exact absurd (List.cons.inj split).1 (by decide)
  | cons first quads =>
      rw [List.flatMap_cons, List.append_assoc] at split
      obtain ⟨same, rest⟩ := List.append_inj split rfl
      have bytes : quad.bytes = first.bytes := (List.cons.inj (List.cons.inj same).2).2
      exact ⟨quads, by rw [HexQuad.eq_of_bytes bytes], rest⟩

/-- Characters that stand in front of the closing quote of a literal are its
escapes, and pair its high surrogates. -/
theorem highsPaired_of_charsText {text content : Bytes}
    (chars : CharsText Dialect.accepted text content) {more : Bytes}
    (split : text ++ ascii '"' :: more = quads.flatMap HexQuad.escape ++ [ascii '"']) :
    more = [] ∧ HighsPaired (quads.map HexQuad.code) := by
  induction chars generalizing quads with
  | nil =>
      cases quads with
      | nil => exact ⟨(List.cons.inj split).2, highsPaired_nil⟩
      | cons first quads => exact absurd (List.cons.inj split).1 (by decide)
  | cons char chars inductionHypothesis =>
      rw [List.append_assoc] at split
      cases char with
      | raw allowed notQuote notBackslash =>
          cases quads with
          | nil => exact absurd (List.cons.inj split).1 notQuote
          | cons first quads => exact absurd (List.cons.inj split).1 notBackslash
      | escape listed =>
          rename_i letter b
          have plain : ∀ pair ∈ escapeTable, pair.1 ≠ ascii 'u' := forall_mem_of_all (by decide)
          cases quads with
          | nil => exact absurd (List.cons.inj split).1 (by decide)
          | cons first quads =>
              exact absurd (List.cons.inj (List.cons.inj split).2).1 (plain _ listed)
      | unit quad allowed =>
          obtain ⟨rest, rfl, later⟩ := exists_first_of_escape split
          obtain ⟨nothing, paired⟩ := inductionHypothesis later
          have notHigh : ¬ IsHighUnit quad.code := HexQuad.isHighUnit_code.not.mpr allowed
          exact ⟨nothing, (highsPaired_cons_of_not notHigh).mpr paired⟩
      | pair high low isHigh isLow =>
          rw [List.append_assoc] at split
          obtain ⟨afterHigh, rfl, second⟩ := exists_first_of_escape split
          obtain ⟨rest, rfl, later⟩ := exists_first_of_escape second
          obtain ⟨nothing, paired⟩ := inductionHypothesis later
          refine ⟨nothing, (highsPaired_cons_of_high (HexQuad.isHighUnit_code.mpr isHigh)).mpr ?_⟩
          exact ⟨_, _, rfl, HexQuad.isLowUnit_code.mpr isLow, paired⟩

/-- A text of the parser's dialect that starts with a quote starts with a string
literal. -/
theorem charsText_of_jsonText {tree : JsonTree Bytes} {text : Bytes}
    (renders : JsonText Dialect.accepted tree (ascii '"' :: text)) :
    ∃ inner content more, CharsText Dialect.accepted inner content ∧
      text = inner ++ ascii '"' :: more := by
  generalize whole : ascii '"' :: text = full at renders
  obtain ⟨before, after, value⟩ := renders
  have noSpace : before.bytes = [] := by
    cases spaces : before.bytes with
    | nil => rfl
    | cons b rest =>
        rw [spaces] at whole
        obtain rfl := (List.cons.inj whole).1
        have isSpace := before.spaces (ascii '"') (by simp [spaces])
        exact absurd isSpace (by decide)
  rw [noSpace] at whole
  cases value with
  | litNull => exact absurd (List.cons.inj whole).1 (by decide)
  | litTrue => exact absurd (List.cons.inj whole).1 (by decide)
  | litFalse => exact absurd (List.cons.inj whole).1 (by decide)
  | number allowed =>
      obtain ⟨-, b, rest, rfl, starts⟩ := allowed
      obtain rfl := (List.cons.inj whole).1
      exact absurd starts (by decide)
  | string chars =>
      exact ⟨_, _, after.bytes, chars,
        (List.cons.inj whole).2.trans (List.append_assoc _ _ _)⟩
  | emptyArray => exact absurd (List.cons.inj whole).1 (by decide)
  | array => exact absurd (List.cons.inj whole).1 (by decide)
  | emptyObject => exact absurd (List.cons.inj whole).1 (by decide)
  | object => exact absurd (List.cons.inj whole).1 (by decide)

end Literal

/-! ### The two decoders -/

section Decoders

variable {D : Type} [CDouble D] {grants : Schedule} (ample : Ample grants) {world : World}
  {quads : List HexQuad}

include ample

/-- The parser on a literal whose units spell escapable code points. -/
theorem tenJsonParse_unitLiteral_of_spells {points : List Nat}
    (nonzero : ∀ quad ∈ quads, quad.unit ≠ 0)
    (spells : Spells IsEscaped utf16Word points (quads.map HexQuad.code)) :
    Returns (tenJsonParse (D := D) (some (unitLiteral quads))) grants world (fun reply _ =>
      ∃ json, reply = some json ∧ json.tree = .string (points.flatMap utf8Word)) := by
  have renders := Derives.text (.string (charsText_of_spells nonzero spells))
  apply (tenJsonParse_complete ample (unitLiteral quads) renders world).mono
  rintro reply after ⟨json, rfl, -, tree, -⟩
  exact ⟨json, rfl, tree⟩

/-- The parser accepts a literal exactly when its high surrogates are paired. -/
theorem tenJsonParse_unitLiteral_isSome (nonzero : ∀ quad ∈ quads, quad.unit ≠ 0) :
    Returns (tenJsonParse (D := D) (some (unitLiteral quads))) grants world (fun reply _ =>
      reply.isSome = true ↔ HighsPaired (quads.map HexQuad.code)) := by
  by_cases paired : HighsPaired (quads.map HexQuad.code)
  · obtain ⟨points, spells⟩ := spells_of_highsPaired paired
    apply (tenJsonParse_unitLiteral_of_spells ample nonzero spells).mono
    rintro reply after ⟨json, rfl, -⟩
    exact iff_of_true rfl paired
  · apply (tenJsonParse_sound (unitLiteral quads) world).mono
    rintro reply after ⟨-, sound, -⟩
    refine iff_of_false ?_ paired
    intro accepted
    obtain ⟨json, rfl⟩ := Option.isSome_iff_exists.mp accepted
    obtain ⟨tree, renders⟩ := sound json rfl
    obtain ⟨inner, content, more, chars, split⟩ := charsText_of_jsonText renders
    exact paired (highsPaired_of_charsText chars split.symm).2

/-- Both decoders on the same units. -/
def parseAndConvert (quads : List HexQuad) : Ten (Option (JsonNode D) × Option CString) := do
  let json ← tenJsonParse (some (unitLiteral quads))
  let text ← tenUtf16ToUtf8 (some (quads.map HexQuad.code)) quads.length
  return (json, text)

/-- The decoders accept the same units, with the same bytes, unless every high
surrogate is paired and some low one is not. -/
theorem parseAndConvert_agree_iff (nonzero : ∀ quad ∈ quads, quad.unit ≠ 0) :
    Returns (parseAndConvert (D := D) quads) grants world (fun (json, text) _ =>
        (json.isSome = true ↔ text.isSome = true) ∧
          ∀ node string, json = some node → text = some string →
            node.tree = .string string.bytes) ↔
      (HighsPaired (quads.map HexQuad.code) → LowsPaired (quads.map HexQuad.code)) := by
  have noZero : (0 : UInt16) ∉ quads.map HexQuad.code := by
    rintro member
    obtain ⟨quad, listed, zero⟩ := List.mem_map.mp member
    apply nonzero quad listed
    rw [← HexQuad.code_toNat, zero]
    rfl
  obtain ⟨json, between, parsed, accepted⟩ :
      Returns (tenJsonParse (D := D) (some (unitLiteral quads))) grants world (fun reply _ =>
        reply.isSome = true ↔ HighsPaired (quads.map HexQuad.code)) :=
    tenJsonParse_unitLiteral_isSome ample nonzero
  obtain ⟨text, after, converted, wellFormed, characters⟩ :
      Returns (tenUtf16ToUtf8 (some (quads.map HexQuad.code)) (quads.map HexQuad.code).length)
        grants between (fun reply _ =>
          (reply.isSome = true ↔ WellFormedUtf16 (quads.map HexQuad.code)) ∧
            ∀ text, reply = some text ↔
              SameCharacters (quads.map HexQuad.code) text.bytes) :=
    tenUtf16ToUtf8_characters ample noZero
  rw [List.length_map] at converted
  rw [parseAndConvert, returns_bind, returns_iff_of_run parsed, returns_bind,
    returns_iff_of_run converted, returns_pure]
  dsimp only
  rw [accepted, wellFormed, wellFormedUtf16_iff_paired]
  constructor
  · rintro ⟨same, -⟩ highs
    exact (same.mp highs).2
  · intro lows
    refine ⟨⟨fun highs => ⟨highs, lows highs⟩, And.left⟩, ?_⟩
    rintro node string rfl rfl
    obtain ⟨points, spellsUnits, spellsText⟩ := (characters string).mp rfl
    have escaped : Spells IsEscaped utf16Word points (quads.map HexQuad.code) := by
      refine ⟨?_, spellsUnits.text⟩
      intro cp member
      obtain ⟨isPoint, notSurrogate⟩ := isValidChar_iff.mp (spellsUnits.valid cp member)
      refine ⟨isPoint, ?_⟩
      unfold IsSurrogate at notSurrogate
      unfold IsHighSurrogate
      omega
    have reads : Returns (tenJsonParse (D := D) (some (unitLiteral quads))) grants world
        (fun reply _ => ∃ json, reply = some json ∧
          json.tree = .string (points.flatMap utf8Word)) :=
      tenJsonParse_unitLiteral_of_spells ample nonzero escaped
    rw [returns_iff_of_run parsed] at reads
    obtain ⟨_, ⟨⟩, tree⟩ := reads
    rw [tree, spellsText.text]

end Decoders

/-- The escape of the low surrogate `U+DC00`. -/
def lowQuad : HexQuad := ⟨ascii 'D', ascii 'C', ascii '0', ascii '0', forall_mem_of_all (by decide)⟩

/-- The units of `U+1F600`. -/
theorem parseAndConvert_agree_pair :
    Returns (parseAndConvert (D := Int) [hexQuad 0xD83D, hexQuad 0xDE00]) (fun _ => true) default
      (fun (json, text) _ =>
        (json.isSome = true ↔ text.isSome = true) ∧
          ∀ node string, json = some node → text = some string →
            node.tree = .string string.bytes) := by
  apply (parseAndConvert_agree_iff ample_always (forall_mem_of_all (by decide))).mpr
  intro _
  simp only [LowsPaired, List.map_cons, List.map_nil, List.isChain_cons_cons]
  exact ⟨by decide, by decide, .singleton _⟩

theorem parseAndConvert_not_agree_low :
    ¬ Returns (parseAndConvert (D := Int) [lowQuad]) (fun _ => true) default
      (fun (json, text) _ =>
        (json.isSome = true ↔ text.isSome = true) ∧
          ∀ node string, json = some node → text = some string →
            node.tree = .string string.bytes) := by
  rintro ⟨⟨json, text⟩, after, run, same, -⟩
  have parsed : (parseAndConvert (D := Int) [lowQuad] (fun _ => true) default).map
      (fun reply => (reply.1.1.isSome, reply.1.2.isSome)) = some (true, false) := by decide
  rw [run, Option.map_some, Option.some.injEq, Prod.mk.injEq] at parsed
  obtain ⟨accepted, rejected⟩ := parsed
  rw [same.mp accepted] at rejected
  cases rejected

end Dotten
