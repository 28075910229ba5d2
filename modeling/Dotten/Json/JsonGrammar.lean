/-
Module: Dotten.Json.JsonGrammar
Layer: Json
Purpose: The JSON grammar of RFC 8259 on bytes, as a relation between texts and
  documents, with the places where dialects differ as parameters.  A document
  keeps the number tokens and repeated keys of its text.
Imports: Dotten.Core.CString, Dotten.Core.Strtod
Main exports: JsonTree, IsJsonNumber, Dialect, CharText, CharsText, Phrase,
  Derives, JsonText, Dialect.rfc8259, IsJsonText, Dialect.wellFormed
-/
import Dotten.Core.CString
import Dotten.Core.Strtod

namespace Dotten

/-- A JSON value with numbers of type `ν`. -/
inductive JsonTree (ν : Type) where
  | null
  | boolean (value : Bool)
  | number (value : ν)
  | string (content : Bytes)
  | array (elements : List (JsonTree ν))
  | object (members : List (Bytes × JsonTree ν))

/-! ### Numbers -/

/-- `1*DIGIT`. -/
def IsDigits (s : Bytes) : Prop := s ≠ [] ∧ ∀ b ∈ s, isDigit b = true

/-- `int = zero / ( digit1-9 *DIGIT )`. -/
inductive IsInteger : Bytes → Prop where
  | zero : IsInteger [ascii '0']
  | positive {d : Byte} {ds : Bytes} (digit : isDigit d = true) (nonzero : d ≠ ascii '0')
      (digits : ∀ b ∈ ds, isDigit b = true) : IsInteger (d :: ds)

/-- `[ frac ]`. -/
inductive IsFraction : Bytes → Prop where
  | none : IsFraction []
  | some {ds : Bytes} (digits : IsDigits ds) : IsFraction (ascii '.' :: ds)

/-- `[ exp ]`. -/
inductive IsExponent : Bytes → Prop where
  | none : IsExponent []
  | some {e : Byte} {sign ds : Bytes} (marker : e = ascii 'e' ∨ e = ascii 'E')
      (signed : sign = [] ∨ sign = [ascii '+'] ∨ sign = [ascii '-']) (digits : IsDigits ds) :
      IsExponent (e :: (sign ++ ds))

/-- `number = [ minus ] int [ frac ] [ exp ]`. -/
inductive IsJsonNumber : Bytes → Prop where
  | intro {minus int frac exp : Bytes} (sign : minus = [] ∨ minus = [ascii '-'])
      (integer : IsInteger int) (fraction : IsFraction frac) (exponent : IsExponent exp) :
      IsJsonNumber (minus ++ (int ++ frac ++ exp))

/-! ### Strings -/

/-- What a dialect leaves open: the number tokens, the bytes that may stand
unescaped in a string, the units that a `u` escape may give on its own, and the
bytes that a code point denotes. -/
structure Dialect where
  number : Bytes → Prop
  raw : Byte → Prop
  unit : Nat → Prop
  encode : Nat → Bytes

/-- The escapes of one letter, with the bytes they denote. -/
def escapeTable : List (Byte × Byte) :=
  [(ascii '"', ascii '"'), (ascii '\\', ascii '\\'), (ascii '/', ascii '/'), (ascii 'b', 0x08),
    (ascii 'f', 0x0C), (ascii 'n', 0x0A), (ascii 'r', 0x0D), (ascii 't', 0x09)]

/-- The value of a hexadecimal digit of either case. -/
def hexValue (b : Byte) : Nat :=
  if isDigit b then b.toNat - '0'.toNat else (asciiLower b).toNat - 'a'.toNat + 10

/-- Four hexadecimal digits. -/
structure HexQuad where
  d0 : Byte
  d1 : Byte
  d2 : Byte
  d3 : Byte
  valid : ∀ d ∈ [d0, d1, d2, d3], isHexDigit d = true

namespace HexQuad

/-- The digits as they stand in the text. -/
def bytes (quad : HexQuad) : Bytes := [quad.d0, quad.d1, quad.d2, quad.d3]

/-- The 16-bit unit that the digits give. -/
def unit (quad : HexQuad) : Nat :=
  ((hexValue quad.d0 * 16 + hexValue quad.d1) * 16 + hexValue quad.d2) * 16 + hexValue quad.d3

end HexQuad

def IsHighSurrogate (unit : Nat) : Prop := 0xD800 ≤ unit ∧ unit ≤ 0xDBFF

def IsLowSurrogate (unit : Nat) : Prop := 0xDC00 ≤ unit ∧ unit ≤ 0xDFFF

instance (unit : Nat) : Decidable (IsHighSurrogate unit) :=
  inferInstanceAs (Decidable (_ ∧ _))

instance (unit : Nat) : Decidable (IsLowSurrogate unit) :=
  inferInstanceAs (Decidable (_ ∧ _))

/-- The code point of a surrogate pair. -/
def surrogatePair (high low : Nat) : Nat := 0x10000 + (high - 0xD800) * 0x400 + (low - 0xDC00)

/-- One character of a string, or a surrogate pair, and the bytes it denotes. -/
inductive CharText (g : Dialect) : Bytes → Bytes → Prop where
  | raw {b : Byte} (allowed : g.raw b) (notQuote : b ≠ ascii '"')
      (notBackslash : b ≠ ascii '\\') : CharText g [b] [b]
  | escape {letter b : Byte} (listed : (letter, b) ∈ escapeTable) :
      CharText g [ascii '\\', letter] [b]
  | unit (quad : HexQuad) (allowed : g.unit quad.unit) :
      CharText g (ascii '\\' :: ascii 'u' :: quad.bytes) (g.encode quad.unit)
  | pair (high low : HexQuad) (isHigh : IsHighSurrogate high.unit)
      (isLow : IsLowSurrogate low.unit) :
      CharText g
        (ascii '\\' :: ascii 'u' :: high.bytes ++ (ascii '\\' :: ascii 'u' :: low.bytes))
        (g.encode (surrogatePair high.unit low.unit))

/-- The characters of a string between its quotes. -/
inductive CharsText (g : Dialect) : Bytes → Bytes → Prop where
  | nil : CharsText g [] []
  | cons {text content texts contents : Bytes} (char : CharText g text content)
      (chars : CharsText g texts contents) :
      CharsText g (text ++ texts) (content ++ contents)

/-! ### Values -/

/-- `ws`. -/
def isJsonSpace (b : Byte) : Bool :=
  b = ascii ' ' || b = ascii '\t' || b = ascii '\n' || b = ascii '\r'

/-- A possibly empty run of white space. -/
structure Whitespace where
  bytes : Bytes
  spaces : ∀ b ∈ bytes, isJsonSpace b = true

/-- What a piece of text renders: a value, the elements of an array that has
some, or the members of an object that has some. -/
inductive Phrase where
  | value (tree : JsonTree Bytes)
  | elements (trees : List (JsonTree Bytes))
  | members (members : List (Bytes × JsonTree Bytes))

/-- The rules of the grammar. -/
inductive Derives (g : Dialect) : Phrase → Bytes → Prop where
  | litNull : Derives g (.value .null) (asciiBytes ['n', 'u', 'l', 'l'])
  | litTrue : Derives g (.value (.boolean true)) (asciiBytes ['t', 'r', 'u', 'e'])
  | litFalse : Derives g (.value (.boolean false)) (asciiBytes ['f', 'a', 'l', 's', 'e'])
  | number {token : Bytes} (allowed : g.number token) :
      Derives g (.value (.number token)) token
  | string {text content : Bytes} (chars : CharsText g text content) :
      Derives g (.value (.string content)) (ascii '"' :: (text ++ [ascii '"']))
  | emptyArray (space : Whitespace) :
      Derives g (.value (.array [])) (ascii '[' :: (space.bytes ++ [ascii ']']))
  | array {trees : List (JsonTree Bytes)} {text : Bytes}
      (elements : Derives g (.elements trees) text) :
      Derives g (.value (.array trees)) (ascii '[' :: (text ++ [ascii ']']))
  | emptyObject (space : Whitespace) :
      Derives g (.value (.object [])) (ascii '{' :: (space.bytes ++ [ascii '}']))
  | object {members : List (Bytes × JsonTree Bytes)} {text : Bytes}
      (list : Derives g (.members members) text) :
      Derives g (.value (.object members)) (ascii '{' :: (text ++ [ascii '}']))
  | element {tree : JsonTree Bytes} {text : Bytes} (before after : Whitespace)
      (value : Derives g (.value tree) text) :
      Derives g (.elements [tree]) (before.bytes ++ (text ++ after.bytes))
  | elements {tree : JsonTree Bytes} {trees : List (JsonTree Bytes)} {text texts : Bytes}
      (before after : Whitespace) (value : Derives g (.value tree) text)
      (rest : Derives g (.elements trees) texts) :
      Derives g (.elements (tree :: trees))
        (before.bytes ++ (text ++ (after.bytes ++ ascii ',' :: texts)))
  | member {key text content : Bytes} {tree : JsonTree Bytes}
      (before beforeColon beforeValue after : Whitespace) (chars : CharsText g key content)
      (value : Derives g (.value tree) text) :
      Derives g (.members [(content, tree)])
        (before.bytes ++ ascii '"' :: (key ++ ascii '"' :: (beforeColon.bytes ++
          ascii ':' :: (beforeValue.bytes ++ (text ++ after.bytes)))))
  | members {key text texts content : Bytes} {tree : JsonTree Bytes}
      {members : List (Bytes × JsonTree Bytes)}
      (before beforeColon beforeValue after : Whitespace) (chars : CharsText g key content)
      (value : Derives g (.value tree) text) (rest : Derives g (.members members) texts) :
      Derives g (.members ((content, tree) :: members))
        (before.bytes ++ ascii '"' :: (key ++ ascii '"' :: (beforeColon.bytes ++
          ascii ':' :: (beforeValue.bytes ++ (text ++ (after.bytes ++ ascii ',' :: texts))))))

/-- `JSON-text = ws value ws`. -/
inductive JsonText (g : Dialect) (tree : JsonTree Bytes) : Bytes → Prop where
  | intro {text : Bytes} (before after : Whitespace) (value : Derives g (.value tree) text) :
      JsonText g tree (before.bytes ++ (text ++ after.bytes))

/-- A value without white space around it is a text. -/
theorem Derives.text {g : Dialect} {tree : JsonTree Bytes} {text : Bytes}
    (derives : Derives g (.value tree) text) : JsonText g tree text := by
  have alone := JsonText.intro ⟨[], by simp⟩ ⟨[], by simp⟩ derives
  rw [List.append_nil] at alone
  exact alone

/-! ### Dialects -/

/-- The UTF-8 encoding of a code point that is a scalar value. -/
def utf8 (codepoint : Nat) : Bytes := String.utf8EncodeChar (Char.ofNat codepoint)

/-- The grammar of RFC 8259, read on bytes: any unit may be escaped.  The texts
do not depend on what the escapes denote. -/
def Dialect.rfc8259 (encode : Nat → Bytes) : Dialect where
  number := IsJsonNumber
  raw b := 0x20 ≤ b.toNat
  unit _ := True
  encode := encode

theorem Dialect.rfc8259_encode (encode : Nat → Bytes) :
    (Dialect.rfc8259 encode).encode = encode := rfl

/-- The JSON texts of RFC 8259. -/
def IsJsonText (text : Bytes) : Prop :=
  ∃ encode tree, JsonText (Dialect.rfc8259 encode) tree text

/-- The texts of RFC 8259 whose strings are Unicode strings without the null
character: surrogates are escaped in pairs. -/
def Dialect.wellFormed : Dialect where
  number := IsJsonNumber
  raw b := 0x20 ≤ b.toNat
  unit u := u ≠ 0 ∧ ¬ IsHighSurrogate u ∧ ¬ IsLowSurrogate u
  encode := utf8

/-! ### Number tokens are what `strtod` reads -/

section NumberTokens

theorem IsInteger.digits {int : Bytes} (integer : IsInteger int) :
    ∀ b ∈ int, isDigit b = true := by
  cases integer with
  | zero => exact forall_mem_of_all (by decide)
  | positive digit nonzero digits =>
      intro b member
      rcases List.mem_cons.mp member with rfl | later
      · exact digit
      · exact digits b later

theorem IsInteger.ne_nil {int : Bytes} (integer : IsInteger int) : int ≠ [] := by
  cases integer <;> simp

theorem isMantissa_of_integer {int frac : Bytes} (integer : IsInteger int)
    (fraction : IsFraction frac) : isMantissa isDigit (int ++ frac) = true := by
  have skipped : (int ++ frac).dropWhile isDigit = frac.dropWhile isDigit :=
    List.dropWhile_append_of_pos integer.digits
  have positive : 0 < int.length := List.length_pos_iff.mpr integer.ne_nil
  rw [isMantissa, skipped]
  cases fraction with
  | none => simpa using integer.ne_nil
  | some digits =>
      rename_i ds
      have point : (ascii '.' :: ds).dropWhile isDigit = ascii '.' :: ds := rfl
      rw [point]
      simp only [decide_true, Bool.true_and, Bool.and_eq_true, List.all_eq_true,
        decide_eq_true_eq, List.length_append, List.length_cons]
      exact ⟨digits.2, by omega⟩

theorem dropSign_of_digits {s : Bytes} (digits : ∀ b ∈ s.head?, isDigit b = true) :
    dropSign s = s := by
  cases s with
  | nil => rfl
  | cons b rest =>
      have digit := digits b rfl
      rw [dropSign, if_neg]
      intro sign
      rcases sign with rfl | rfl
      · cases digit
      · cases digit

theorem IsDigits.dropSign {ds : Bytes} (digits : IsDigits ds) : Dotten.dropSign ds = ds := by
  apply dropSign_of_digits
  intro b first
  exact digits.2 b (List.mem_of_mem_head? first)

theorem isExponentPart_of_exponent {exp : Bytes} (exponent : IsExponent exp) :
    exp.length = 0 ∨ isExponentPart (ascii 'e') exp = true := by
  cases exponent with
  | none => exact .inl rfl
  | some marker signed digits =>
      rename_i e sign ds
      right
      have unsigned : dropSign (sign ++ ds) = ds := by
        rcases signed with rfl | rfl | rfl
        · exact digits.dropSign
        · rfl
        · rfl
      have lower : asciiLower e = ascii 'e' := by
        rcases marker with rfl | rfl <;> rfl
      simp only [isExponentPart, lower, unsigned, decide_true, Bool.true_and, Bool.and_eq_true,
        decide_eq_true_eq, List.all_eq_true]
      exact ⟨fun empty => digits.1 (List.eq_nil_of_length_eq_zero empty), digits.2⟩

/-- Every JSON number is a subject sequence of `strtod`. -/
theorem IsJsonNumber.isSubjectSequence {token : Bytes} (number : IsJsonNumber token) :
    isSubjectSequence token = true := by
  cases number with
  | intro sign integer fraction exponent =>
      rename_i minus int frac exp
      have unsigned : dropSign (minus ++ (int ++ frac ++ exp)) = int ++ frac ++ exp := by
        rcases sign with rfl | rfl
        · apply dropSign_of_digits
          intro b first
          apply integer.digits b
          cases integer with
          | zero =>
              cases first
              exact List.mem_cons_self
          | positive _ _ _ =>
              cases first
              exact List.mem_cons_self
        · rfl
      rw [Dotten.isSubjectSequence, unsigned, isUnsignedSubject]
      have floating : isFloatingSequence isDigit (ascii 'e') (int ++ frac ++ exp) = true := by
        simp only [isFloatingSequence, List.any_eq_true, List.mem_range, Bool.and_eq_true,
          Bool.or_eq_true, decide_eq_true_eq]
        refine ⟨(int ++ frac).length, by simp only [List.length_append]; omega, ?_, ?_⟩
        · rw [List.take_left]
          exact isMantissa_of_integer integer fraction
        · rw [List.drop_left]
          exact isExponentPart_of_exponent exponent
      rw [floating]
      rfl

/-- The first byte by which the parser recognises a number. -/
theorem IsJsonNumber.head {token : Bytes} (number : IsJsonNumber token) :
    ∃ b rest, token = b :: rest ∧ (b = ascii '-' ∨ isDigit b = true) := by
  cases number with
  | intro sign integer fraction exponent =>
      rename_i minus int frac exp
      rcases sign with rfl | rfl
      · cases integer with
        | zero => exact ⟨_, _, rfl, .inr rfl⟩
        | positive digit _ _ => exact ⟨_, _, rfl, .inr digit⟩
      · exact ⟨_, _, rfl, .inl rfl⟩

end NumberTokens

end Dotten
