/-
Module: Dotten.Json.JsonCodePoints
Layer: Json
Purpose: The code points that a string literal denotes by RFC 8259, and which
  literals the parser tells apart: it drops the null character.
Imports: Dotten.Json.JsonUtf16
Main exports: CharPoint, CharsPoints, CharsPoints.charsText, DifferInNulls,
  decode_apart_iff
-/
import Dotten.Json.JsonUtf16

namespace Dotten

open Dotten.Library

/-- A character of a string, or a surrogate pair, and the code point it
denotes. -/
inductive CharPoint : Bytes → Nat → Prop where
  | raw {cp : Nat} (scalar : cp.isValidChar) (notQuote : cp ≠ '"'.toNat)
      (notBackslash : cp ≠ '\\'.toNat) : CharPoint (utf8Word cp) cp
  | escape {letter b : Byte} (listed : (letter, b) ∈ escapeTable) :
      CharPoint [ascii '\\', letter] b.toNat
  | unit (quad : HexQuad) (notHigh : ¬ IsHighSurrogate quad.unit)
      (notLow : ¬ IsLowSurrogate quad.unit) : CharPoint quad.escape quad.unit
  | pair (high low : HexQuad) (isHigh : IsHighSurrogate high.unit)
      (isLow : IsLowSurrogate low.unit) :
      CharPoint (high.escape ++ low.escape) (surrogatePair high.unit low.unit)

/-- The code points that a string denotes, from the text between its quotes:
well-formed UTF-8 whose escaped surrogates are paired. -/
inductive CharsPoints : Bytes → List Nat → Prop where
  | nil : CharsPoints [] []
  | cons {text texts : Bytes} {cp : Nat} {points : List Nat} (char : CharPoint text cp)
      (chars : CharsPoints texts points) : CharsPoints (text ++ texts) (cp :: points)

/-- The content that the parser gives to a string. -/
def keptContent (points : List Nat) : Bytes := (points.filter (· ≠ 0)).flatMap utf8Word

/-- Two strings that are the same but for null characters. -/
def DifferInNulls (points others : List Nat) : Prop :=
  points ≠ others ∧ points.filter (· ≠ 0) = others.filter (· ≠ 0)

instance (points others : List Nat) : Decidable (DifferInNulls points others) :=
  inferInstanceAs (Decidable (_ ∧ _))

section Denotation

theorem CharPoint.isValidChar {text : Bytes} {cp : Nat} (char : CharPoint text cp) :
    cp.isValidChar := by
  cases char with
  | raw scalar _ _ => exact scalar
  | escape listed =>
      have all : ∀ pair ∈ escapeTable, pair.2.toNat < 0x80 := forall_mem_of_all (by decide)
      exact .inl (Nat.lt_trans (all _ listed) (by decide))
  | unit quad notHigh notLow =>
      have unit := isValidChar_unit (HexQuad.isHighUnit_code.not.mpr notHigh)
        (HexQuad.isLowUnit_code.not.mpr notLow)
      rw [HexQuad.code_toNat] at unit
      exact unit
  | pair high low isHigh isLow =>
      have point := isValidChar_surrogatePoint (HexQuad.isHighUnit_code.mpr isHigh)
        (HexQuad.isLowUnit_code.mpr isLow)
      rw [HexQuad.code_toNat, HexQuad.code_toNat] at point
      exact point

theorem CharsPoints.isValidChar {text : Bytes} {points : List Nat}
    (denotes : CharsPoints text points) : ∀ cp ∈ points, cp.isValidChar := by
  induction denotes with
  | nil => simp
  | cons char _ inductionHypothesis =>
      exact List.forall_mem_cons.mpr ⟨char.isValidChar, inductionHypothesis⟩

theorem CharsText.append {g : Dialect} {text content texts contents : Bytes}
    (chars : CharsText g text content) (more : CharsText g texts contents) :
    CharsText g (text ++ texts) (content ++ contents) := by
  induction chars with
  | nil => exact more
  | cons char _ inductionHypothesis =>
      rw [List.append_assoc, List.append_assoc]
      exact .cons char inductionHypothesis

/-- Unescaped bytes denote themselves. -/
theorem charsText_raw {text : Bytes} (noNul : (0 : Byte) ∉ text)
    (plain : ∀ b ∈ text, b ≠ ascii '"' ∧ b ≠ ascii '\\') :
    CharsText Dialect.accepted text text := by
  induction text with
  | nil => exact .nil
  | cons b text inductionHypothesis =>
      rw [List.mem_cons, not_or] at noNul
      obtain ⟨⟨notQuote, notBackslash⟩, later⟩ := List.forall_mem_cons.mp plain
      exact .cons (.raw (Ne.symm noNul.1) notQuote notBackslash)
        (inductionHypothesis noNul.2 later)

/-- The bytes of a character that is no quote and no backslash. -/
theorem plain_utf8Word {cp : Nat} (scalar : cp.isValidChar) (notQuote : cp ≠ '"'.toNat)
    (notBackslash : cp ≠ '\\'.toNat) :
    ∀ b ∈ utf8Word cp, b ≠ ascii '"' ∧ b ≠ ascii '\\' := by
  rcases Nat.lt_or_ge cp 0x80 with one | one
  · obtain ⟨b, word, value⟩ := utf8Word_one one
    rw [word, List.forall_mem_singleton]
    constructor
    · rintro rfl
      exact notQuote value.symm
    · rintro rfl
      exact notBackslash value.symm
  · intro b member
    have large := utf8Word_bytes_ge one (isValidChar_iff.mp scalar).1 b member
    constructor
    · rintro rfl
      exact absurd large (by decide)
    · rintro rfl
      exact absurd large (by decide)

theorem keptContent_singleton {cp : Nat} (nonzero : cp ≠ 0) : keptContent [cp] = utf8Word cp := by
  rw [keptContent, List.filter_cons_of_pos (by simpa using nonzero), List.filter_nil,
    List.flatMap_singleton]

theorem CharText.single {g : Dialect} {text content : Bytes} (char : CharText g text content) :
    CharsText g text content := by
  have chars := CharsText.cons char .nil
  rw [List.append_nil, List.append_nil] at chars
  exact chars

/-- The parser reads a character as the code point it denotes, and drops the
null character. -/
theorem CharPoint.charsText {text : Bytes} {cp : Nat} (char : CharPoint text cp)
    (noNul : (0 : Byte) ∉ text) : CharsText Dialect.accepted text (keptContent [cp]) := by
  cases char with
  | raw scalar notQuote notBackslash =>
      have nonzero : cp ≠ 0 := by
        rintro rfl
        exact noNul (by decide)
      rw [keptContent_singleton nonzero]
      exact charsText_raw noNul (plain_utf8Word scalar notQuote notBackslash)
  | escape listed =>
      have content : ∀ pair ∈ escapeTable, keptContent [pair.2.toNat] = [pair.2] :=
        forall_mem_of_all (by decide)
      rw [content _ listed]
      exact (CharText.escape listed).single
  | unit quad notHigh notLow =>
      have below : IsCodePoint quad.unit := Nat.lt_trans quad.unit_lt (by decide)
      by_cases zero : quad.unit = 0
      · have dropped : Dialect.accepted.encode 0 = [] := by decide
        have char := CharText.unit (g := Dialect.accepted) quad notHigh
        rw [zero, dropped] at char
        rw [zero]
        exact char.single
      · rw [keptContent_singleton zero]
        exact (charText_escape zero ⟨below, notHigh⟩).single
  | pair high low isHigh isLow =>
      have bounds := surrogatePair_bounds isHigh isLow
      have char := charText_escape_pair (HexQuad.isHighUnit_code.mpr isHigh)
        (HexQuad.isLowUnit_code.mpr isLow)
      rw [HexQuad.code_toNat, HexQuad.code_toNat] at char
      rw [keptContent_singleton (by omega)]
      exact char.single

/-- The parser reads a literal as the code points it denotes, without the null
characters. -/
theorem CharsPoints.charsText {text : Bytes} {points : List Nat}
    (denotes : CharsPoints text points) (noNul : (0 : Byte) ∉ text) :
    CharsText Dialect.accepted text (keptContent points) := by
  induction denotes with
  | nil => exact .nil
  | cons char _ inductionHypothesis =>
      rename_i cp points _
      rw [List.mem_append, not_or] at noNul
      have split : keptContent (cp :: points) = keptContent [cp] ++ keptContent points := by
        rw [← List.singleton_append, keptContent, List.filter_append, List.flatMap_append]
        rfl
      rw [split]
      exact (char.charsText noNul.1).append (inductionHypothesis noNul.2)

/-- The content determines the code points but for the null characters. -/
theorem keptContent_inj {points others : List Nat} (valid : ∀ cp ∈ points, cp.isValidChar)
    (valid' : ∀ cp ∈ others, cp.isValidChar) :
    keptContent points = keptContent others ↔
      points.filter (· ≠ 0) = others.filter (· ≠ 0) := by
  constructor
  · intro same
    have spelled : ∀ {list : List Nat}, (∀ cp ∈ list, cp.isValidChar) →
        Spells IsCodePoint utf8Word (list.filter (· ≠ 0)) (keptContent list) := by
      intro list valid
      refine spells_flatMap ?_
      intro cp member
      exact (isValidChar_iff.mp (valid cp (List.mem_of_mem_filter member))).1
    have first := spelled valid
    rw [same] at first
    exact tenUtf8DecodeOne_reads.spells_unique first (spelled valid')
  · intro same
    rw [keptContent, keptContent, same]

end Denotation

/-! ### Literals and keys -/

/-- The literal with `inner` between its quotes. -/
def stringLiteral (inner : CString) : CString where
  bytes := ascii '"' :: (inner.bytes ++ [ascii '"'])
  noNul := by
    have quote : (0 : Byte) ≠ ascii '"' := by decide
    simp [inner.noNul, quote]

/-- An object with two members. -/
def twoMembersText (key value key' value' : Bytes) : Bytes :=
  ascii '{' :: (ascii '"' :: (key ++ ascii '"' :: ascii ':' :: (value ++
    ascii ',' :: ascii '"' :: (key' ++ ascii '"' :: ascii ':' :: value'))) ++ [ascii '}'])

def twoMembers (key value key' value' : CString) : CString where
  bytes := twoMembersText key.bytes value.bytes key'.bytes value'.bytes
  noNul := by
    have marks : ∀ b ∈ asciiBytes ['{', '"', ':', ',', '}'], (0 : Byte) ≠ b :=
      forall_mem_of_all (by decide)
    simp only [asciiBytes, List.map_cons, List.map_nil, List.forall_mem_cons] at marks
    obtain ⟨left, quote, colon, comma, right, -⟩ := marks
    simp [twoMembersText, key.noNul, key'.noNul, value.noNul, value'.noNul, left, quote, colon,
      comma, right]

theorem jsonText_twoMembers {g : Dialect} {key key' value value' content content' : Bytes}
    {tree tree' : JsonTree Bytes} (chars : CharsText g key content)
    (chars' : CharsText g key' content') (renders : JsonText g tree value)
    (renders' : JsonText g tree' value') :
    JsonText g (.object [(content, tree), (content', tree')])
      (twoMembersText key value key' value') := by
  let none : Whitespace := ⟨[], by simp⟩
  obtain ⟨before, after, derives⟩ := renders
  obtain ⟨before', after', derives'⟩ := renders'
  have members := Derives.members none none before after chars derives
    (.member none none before' after' chars' derives')
  have text := (Derives.object members).text
  rw [twoMembersText]
  simp only [none, List.nil_append, List.append_assoc, List.cons_append] at text ⊢
  exact text

/-- Two literals, parsed one after the other. -/
def parseBoth {D : Type} [CDouble D] (first second : CString) :
    Ten (Option (JsonNode D) × Option (JsonNode D)) := do
  let left ← tenJsonParse (some (stringLiteral first))
  let right ← tenJsonParse (some (stringLiteral second))
  return (left, right)

section Decoding

variable {D : Type} [CDouble D] {grants : Schedule} (ample : Ample grants) {world : World}
  {first second : CString} {points others : List Nat}
  (denotes : CharsPoints first.bytes points) (denotes' : CharsPoints second.bytes others)

include ample denotes

/-- The parser on a literal. -/
theorem tenJsonParse_stringLiteral :
    Returns (tenJsonParse (D := D) (some (stringLiteral first))) grants world (fun reply _ =>
      ∃ json, reply = some json ∧ json.tree = .string (keptContent points)) := by
  have renders := Derives.text (.string (denotes.charsText first.noNul))
  apply (tenJsonParse_complete ample (stringLiteral first) renders world).mono
  rintro reply after ⟨json, rfl, -, tree, -⟩
  exact ⟨json, rfl, tree⟩

include denotes'

/-- The parser on two literals. -/
theorem parseBoth_spec :
    Returns (parseBoth (D := D) first second) grants world (fun (left, right) _ =>
      ∃ json json', left = some json ∧ right = some json' ∧
        json.tree = .string (keptContent points) ∧ json'.tree = .string (keptContent others)) := by
  simp only [parseBoth, returns_bind, returns_pure]
  apply (tenJsonParse_stringLiteral ample denotes).mono
  rintro left between ⟨json, rfl, tree⟩
  apply (tenJsonParse_stringLiteral ample denotes').mono
  rintro right after ⟨json', rfl, tree'⟩
  exact ⟨json, json', rfl, rfl, tree, tree'⟩

/-- The members of the object stay apart when the contents of their keys
differ. -/
theorem tenJsonParse_twoMembers {value value' : CString} {tree tree' : JsonTree Bytes}
    (renders : JsonText Dialect.accepted tree value.bytes)
    (renders' : JsonText Dialect.accepted tree' value'.bytes) :
    Returns (tenJsonParse (D := D) (some (twoMembers first value second value'))) grants world
      (fun reply _ => ∃ json members, reply = some json ∧ json.tree = .object members ∧
        (members.length = 2 ↔ keptContent points ≠ keptContent others)) := by
  have object := jsonText_twoMembers (denotes.charsText first.noNul)
    (denotes'.charsText second.noNul) renders renders'
  apply (tenJsonParse_complete ample (twoMembers first value second value') object world).mono
  rintro reply after ⟨json, rfl, -, tree, -⟩
  rw [JsonTree.denote, denoteMembers_eq_map, List.map_cons, List.map_cons, List.map_nil] at tree
  refine ⟨json, _, rfl, tree, ?_⟩
  by_cases same : keptContent points = keptContent others
  · rw [same]
    simp [OrderedMap.collapse, List.eraseDups_cons]
  · rw [OrderedMap.collapse_of_distinct (by simpa using same)]
    exact iff_of_true rfl same

/-- Contents are told apart, and keys kept apart, exactly for literals that do
not differ in null characters alone. -/
theorem decode_apart_iff {value value' : CString} {tree tree' : JsonTree Bytes}
    (renders : JsonText Dialect.accepted tree value.bytes)
    (renders' : JsonText Dialect.accepted tree' value'.bytes) :
    (Returns (parseBoth (D := D) first second) grants world (fun (left, right) _ =>
        ∃ json json', left = some json ∧ right = some json' ∧
          (json.tree = json'.tree → points = others)) ∧
      Returns (tenJsonParse (D := D) (some (twoMembers first value second value'))) grants world
        (fun reply _ => ∃ json members, reply = some json ∧ json.tree = .object members ∧
          (points ≠ others → members.length = 2))) ↔
      ¬ DifferInNulls points others := by
  have contents := keptContent_inj denotes.isValidChar denotes'.isValidChar
  obtain ⟨⟨_, _⟩, after, runLiterals, left, right, ⟨⟩, ⟨⟩, leftTree, rightTree⟩ :
      Returns (parseBoth (D := D) first second) grants world (fun (left, right) _ =>
        ∃ json json', left = some json ∧ right = some json' ∧
          json.tree = .string (keptContent points) ∧
          json'.tree = .string (keptContent others)) := parseBoth_spec ample denotes denotes'
  obtain ⟨_, last, runObject, object, members, rfl, objectTree, apart⟩ :
      Returns (tenJsonParse (D := D) (some (twoMembers first value second value'))) grants world
        (fun reply _ => ∃ json members, reply = some json ∧ json.tree = .object members ∧
          (members.length = 2 ↔ keptContent points ≠ keptContent others)) :=
    tenJsonParse_twoMembers ample denotes denotes' renders renders'
  rw [returns_iff_of_run runLiterals, returns_iff_of_run runObject]
  constructor
  · rintro ⟨⟨_, _, ⟨⟩, ⟨⟩, told⟩, -⟩ ⟨differ, same⟩
    apply differ (told _)
    rw [leftTree, rightTree, contents.mpr same]
  · intro plain
    have told : keptContent points = keptContent others → points = others := by
      intro same
      by_contra differ
      exact plain ⟨differ, contents.mp same⟩
    refine ⟨⟨left, right, rfl, rfl, ?_⟩, object, members, rfl, objectTree, ?_⟩
    · intro same
      rw [leftTree, rightTree, JsonTree.string.injEq] at same
      exact told same
    · intro differ
      exact apart.mpr fun same => differ (told same)

end Decoding

/-- The escape of the null character. -/
def nullKey : CString := ⟨(hexQuad 0).escape, by decide⟩

theorem charsPoints_nullKey : CharsPoints nullKey.bytes [0] := by
  have char := CharPoint.unit (hexQuad 0) (by decide) (by decide)
  have unit : (hexQuad 0).unit = 0 := by decide
  rw [unit] at char
  exact .cons char .nil

/-- The keys `""` and `"\n"`. -/
theorem decode_apart_newline :
    Returns (parseBoth (D := Int) ⟨[], by simp⟩ ⟨asciiBytes ['\\', 'n'], by decide⟩)
        (fun _ => true) default (fun (left, right) _ =>
        ∃ json json', left = some json ∧ right = some json' ∧
          (json.tree = json'.tree → [] = [0x0A])) ∧
      Returns (tenJsonParse (D := Int) (some (twoMembers ⟨[], by simp⟩
          ⟨asciiBytes ['n', 'u', 'l', 'l'], by decide⟩ ⟨asciiBytes ['\\', 'n'], by decide⟩
          ⟨asciiBytes ['n', 'u', 'l', 'l'], by decide⟩))) (fun _ => true) default
        (fun reply _ => ∃ json members, reply = some json ∧ json.tree = .object members ∧
          (([] : List Nat) ≠ [0x0A] → members.length = 2)) := by
  have newline : CharsPoints (asciiBytes ['\\', 'n']) [0x0A] :=
    .cons (.escape (by decide) : CharPoint _ (0x0A : Byte).toNat) .nil
  exact (decode_apart_iff ample_always .nil newline Derives.litNull.text
    Derives.litNull.text).mpr (by decide)

/-- The literals `"\u0000"` and `""` have the same content. -/
theorem decode_not_apart_null :
    CharsPoints nullKey.bytes [0] ∧ CharsPoints [] [] ∧
      ¬ Returns (parseBoth (D := Int) nullKey ⟨[], by simp⟩) (fun _ => true) default
        (fun (left, right) _ => ∃ json json', left = some json ∧ right = some json' ∧
          (json.tree = json'.tree → [0] = [])) := by
  refine ⟨charsPoints_nullKey, .nil, ?_⟩
  obtain ⟨⟨_, _⟩, after, run, left, right, ⟨⟩, ⟨⟩, leftTree, rightTree⟩ :
      Returns (parseBoth (D := Int) nullKey ⟨[], by simp⟩) (fun _ => true) default
        (fun (left, right) _ => ∃ json json', left = some json ∧ right = some json' ∧
          json.tree = .string (keptContent [0]) ∧ json'.tree = .string (keptContent [])) :=
    parseBoth_spec ample_always charsPoints_nullKey .nil
  rw [returns_iff_of_run run]
  rintro ⟨_, _, ⟨⟩, ⟨⟩, told⟩
  have same : keptContent [0] = keptContent [] := by decide
  rw [leftTree, rightTree, same] at told
  cases told rfl

end Dotten
