/-
Module: Dotten.Json.JsonLexemes
Layer: Json
Purpose: Exactly when the parser keeps its promise to accept JSON texts only:
  its dialect differs from RFC 8259 in two kinds of lexemes, which a scan of
  the text finds, and no object may come to be out of step.
Imports: Dotten.Json.JsonParserRelease
Main exports: LexMode, LexicallyClean, ParsesOnlyJson, clean_of_derives,
  derives_of_clean, parsesOnlyJson_iff_clean
-/
import Dotten.Json.JsonParserRelease

namespace Dotten

open Dotten.Library

/-- Where a scan of a JSON text stands: outside the string literals, with some
bytes of a number token still to pass; in a literal; or behind a backslash. -/
inductive LexMode where
  | outside (skip : Nat)
  | literal
  | escaped
deriving DecidableEq, Repr

/-- From left to right, every token that `strtod` would take where a minus sign
or a digit stands outside the string literals is a JSON number, and no byte of a
string literal is a control character. -/
def LexicallyClean : LexMode → Bytes → Prop
  | _, [] => True
  | .outside (skip + 1), _ :: rest => LexicallyClean (.outside skip) rest
  | .outside 0, c :: rest =>
      if c = ascii '"' then LexicallyClean .literal rest
      else if c = ascii '-' ∨ isDigit c = true then
        IsJsonNumber ((c :: rest).take (strtodLen (c :: rest))) ∧
          LexicallyClean (.outside (strtodLen (c :: rest) - 1)) rest
      else LexicallyClean (.outside 0) rest
  | .literal, c :: rest =>
      if c = ascii '"' then LexicallyClean (.outside 0) rest
      else if c = ascii '\\' then LexicallyClean .escaped rest
      else 0x20 ≤ c.toNat ∧ LexicallyClean .literal rest
  | .escaped, _ :: rest => LexicallyClean .literal rest

/-- What `json.h` promises of a text: a value only for a JSON text, and for any
other text NULL with a parse error, whatever the allocator does.  No string is read
that has been freed. -/
def ParsesOnlyJson (D : Type) [CDouble D] (text : CString) : Prop :=
  ∀ grants world, Returns (tenJsonParse (D := D) (some text)) grants world (fun reply after =>
    (reply ≠ none → IsJsonText text.bytes) ∧
      (¬ IsJsonText text.bytes → reply = none ∧ after.lastError = .parse) ∧
      after.strayReads = world.strayReads)

section Scan

/-- The bytes of a number token are passed over. -/
theorem clean_skip (token rest : Bytes) :
    LexicallyClean (.outside token.length) (token ++ rest) ↔
      LexicallyClean (.outside 0) rest := by
  induction token with
  | nil => exact Iff.rfl
  | cons b token inductionHypothesis => exact inductionHypothesis

/-- A byte that begins neither a literal nor a number is passed over. -/
theorem clean_cons {c : Byte} (plain : c ≠ ascii '"' ∧ ¬ (c = ascii '-' ∨ isDigit c = true))
    (rest : Bytes) :
    LexicallyClean (.outside 0) (c :: rest) ↔ LexicallyClean (.outside 0) rest := by
  rw [LexicallyClean, if_neg plain.1, if_neg plain.2]

theorem clean_append {plain : Bytes}
    (bytes : ∀ c ∈ plain, c ≠ ascii '"' ∧ ¬ (c = ascii '-' ∨ isDigit c = true))
    (rest : Bytes) :
    LexicallyClean (.outside 0) (plain ++ rest) ↔ LexicallyClean (.outside 0) rest := by
  induction plain with
  | nil => exact Iff.rfl
  | cons c plain inductionHypothesis =>
      rw [List.cons_append, clean_cons (bytes c List.mem_cons_self)]
      exact inductionHypothesis (fun b member => bytes b (List.mem_cons_of_mem c member))

theorem clean_space (space : Whitespace) (rest : Bytes) :
    LexicallyClean (.outside 0) (space.bytes ++ rest) ↔ LexicallyClean (.outside 0) rest := by
  apply clean_append
  intro c member
  have plain : ∀ c : Byte, isJsonSpace c = true →
      c ≠ ascii '"' ∧ ¬ (c = ascii '-' ∨ isDigit c = true) := by
    apply forall_byte
    decide
  exact plain c (space.spaces c member)

/-- A token of the dialect is clean when it is a JSON number. -/
theorem clean_number {token rest : Bytes} (allowed : Dialect.accepted.number token)
    (ends : EndsSubject rest) :
    LexicallyClean (.outside 0) (token ++ rest) ↔
      IsJsonNumber token ∧ LexicallyClean (.outside 0) rest := by
  obtain ⟨subject, b, tail, rfl, starts⟩ := allowed
  have notQuote : b ≠ ascii '"' := by
    rcases starts with rfl | digit
    · decide
    · rintro rfl
      cases digit
  have length := strtodLen_append subject ends
  rw [List.cons_append] at length ⊢
  rw [LexicallyClean, if_neg notQuote, if_pos starts, length, ← List.cons_append, List.take_left]
  have rest := clean_skip tail rest
  rw [List.length_cons, Nat.add_sub_cancel]
  exact and_congr_right (fun _ => rest)

/-- The bytes of an escape. -/
theorem clean_escape (letter : Byte) (rest : Bytes) :
    LexicallyClean .literal (ascii '\\' :: letter :: rest) ↔ LexicallyClean .literal rest := by
  rw [LexicallyClean, if_neg (by decide), if_pos rfl, LexicallyClean]

theorem clean_raw {b : Byte} (notQuote : b ≠ ascii '"') (notBackslash : b ≠ ascii '\\')
    (rest : Bytes) :
    LexicallyClean .literal (b :: rest) ↔ 0x20 ≤ b.toNat ∧ LexicallyClean .literal rest := by
  rw [LexicallyClean, if_neg notQuote, if_neg notBackslash]

theorem clean_quad (quad : HexQuad) (rest : Bytes) :
    LexicallyClean .literal (quad.bytes ++ rest) ↔ LexicallyClean .literal rest := by
  have hex : ∀ b : Byte, isHexDigit b = true →
      b ≠ ascii '"' ∧ b ≠ ascii '\\' ∧ 0x20 ≤ b.toNat := by
    apply forall_byte
    decide
  have pass : ∀ {b : Byte}, isHexDigit b = true → ∀ rest,
      (LexicallyClean .literal (b :: rest) ↔ LexicallyClean .literal rest) := by
    intro b digit rest
    obtain ⟨notQuote, notBackslash, printable⟩ := hex b digit
    rw [clean_raw notQuote notBackslash]
    exact and_iff_right printable
  obtain ⟨h0, h1, h2, h3⟩ := quad.digits
  change LexicallyClean .literal (quad.d0 :: quad.d1 :: quad.d2 :: quad.d3 :: rest) ↔ _
  rw [pass h0, pass h1, pass h2, pass h3]

/-- A character of RFC 8259 is passed over. -/
theorem clean_char {encode : Nat → Bytes} {text content : Bytes}
    (char : CharText (Dialect.rfc8259 encode) text content) (rest : Bytes) :
    LexicallyClean .literal (text ++ rest) ↔ LexicallyClean .literal rest := by
  cases char with
  | raw allowed notQuote notBackslash =>
      rw [List.singleton_append, clean_raw notQuote notBackslash]
      exact and_iff_right allowed
  | escape listed => exact clean_escape _ rest
  | unit quad allowed =>
      rw [List.cons_append, List.cons_append, clean_escape, clean_quad]
  | pair high low isHigh isLow =>
      rw [List.append_assoc, List.cons_append, List.cons_append, clean_escape, clean_quad,
        List.cons_append, List.cons_append, clean_escape, clean_quad]

theorem clean_chars {encode : Nat → Bytes} {text content : Bytes}
    (chars : CharsText (Dialect.rfc8259 encode) text content) (rest : Bytes) :
    LexicallyClean .literal (text ++ ascii '"' :: rest) ↔
      LexicallyClean (.outside 0) rest := by
  induction chars with
  | nil => rw [List.nil_append, LexicallyClean, if_pos rfl]
  | cons char _ inductionHypothesis =>
      rw [List.append_assoc, clean_char char]
      exact inductionHypothesis

/-- A character that the parser reads and the scan passes is one of RFC 8259. -/
theorem char_of_clean {text content rest : Bytes}
    (char : CharText Dialect.accepted text content)
    (clean : LexicallyClean .literal (text ++ rest)) :
    CharText (Dialect.rfc8259 Dialect.accepted.encode) text content := by
  cases char with
  | raw allowed notQuote notBackslash =>
      rw [List.singleton_append, clean_raw notQuote notBackslash] at clean
      exact .raw clean.1 notQuote notBackslash
  | escape listed => exact .escape listed
  | unit quad allowed => exact .unit quad trivial
  | pair high low isHigh isLow =>
      have pair := CharText.pair (g := Dialect.rfc8259 Dialect.accepted.encode)
        high low isHigh isLow
      rw [Dialect.rfc8259_encode] at pair
      exact pair

theorem chars_of_clean {text content rest : Bytes}
    (chars : CharsText Dialect.accepted text content)
    (clean : LexicallyClean .literal (text ++ ascii '"' :: rest)) :
    CharsText (Dialect.rfc8259 Dialect.accepted.encode) text content := by
  induction chars with
  | nil => exact .nil
  | cons char _ inductionHypothesis =>
      rw [List.append_assoc] at clean
      have char' := char_of_clean char clean
      rw [clean_char char'] at clean
      exact .cons char' (inductionHypothesis clean)

theorem clean_quote (rest : Bytes) :
    LexicallyClean (.outside 0) (ascii '"' :: rest) ↔ LexicallyClean .literal rest := by
  rw [LexicallyClean, if_pos rfl]

theorem endsSubject_append (space : Whitespace) {rest : Bytes} (ends : EndsSubject rest) :
    EndsSubject (space.bytes ++ rest) := by
  cases rest with
  | nil =>
      intro b first
      rw [List.append_nil] at first
      have apart : ∀ b : Byte, isJsonSpace b = true → isSubjectByte b = false := by
        apply forall_byte
        decide
      exact apart b (space.spaces b (List.mem_of_mem_head? first))
  | cons b rest => exact endsSubject_space space (ends b rfl) rest

theorem endsSubject_cons {b : Byte} (ends : isSubjectByte b = false) (rest : Bytes) :
    EndsSubject (b :: rest) := by
  intro first isFirst
  cases isFirst
  exact ends

/-- A piece of text of RFC 8259 is passed over. -/
theorem clean_of_derives {encode : Nat → Bytes} {phrase : Phrase} {text : Bytes}
    (derives : Derives (Dialect.rfc8259 encode) phrase text) :
    ∀ rest, EndsSubject rest →
      (LexicallyClean (.outside 0) (text ++ rest) ↔ LexicallyClean (.outside 0) rest) := by
  induction derives with
  | litNull =>
      intro rest _
      exact clean_append (forall_mem_of_all (by decide)) rest
  | litTrue =>
      intro rest _
      exact clean_append (forall_mem_of_all (by decide)) rest
  | litFalse =>
      intro rest _
      exact clean_append (forall_mem_of_all (by decide)) rest
  | number allowed =>
      intro rest ends
      have number : IsJsonNumber _ := allowed
      rw [clean_number ⟨number.isSubjectSequence, number.head⟩ ends]
      exact and_iff_right number
  | string chars =>
      intro rest _
      rw [List.cons_append, clean_quote, List.append_assoc, List.singleton_append]
      exact clean_chars chars rest
  | emptyArray space =>
      intro rest _
      rw [List.cons_append, clean_cons (by decide), List.append_assoc, clean_space]
      exact clean_cons (by decide) rest
  | array _ elements =>
      intro rest _
      rw [List.cons_append, clean_cons (by decide), List.append_assoc, List.singleton_append,
        elements _ (endsSubject_cons (by decide) rest)]
      exact clean_cons (by decide) rest
  | emptyObject space =>
      intro rest _
      rw [List.cons_append, clean_cons (by decide), List.append_assoc, clean_space]
      exact clean_cons (by decide) rest
  | object _ list =>
      intro rest _
      rw [List.cons_append, clean_cons (by decide), List.append_assoc, List.singleton_append,
        list _ (endsSubject_cons (by decide) rest)]
      exact clean_cons (by decide) rest
  | element before after _ value =>
      intro rest ends
      rw [List.append_assoc, clean_space, List.append_assoc,
        value _ (endsSubject_append after ends), clean_space]
  | elements before after _ _ value others =>
      intro rest ends
      rw [List.append_assoc, clean_space, List.append_assoc, List.append_assoc,
        List.cons_append, value _ (endsSubject_space after (by decide) _), clean_space,
        clean_cons (by decide)]
      exact others rest ends
  | member before beforeColon beforeValue after chars _ value =>
      intro rest ends
      simp only [List.append_assoc, List.cons_append]
      rw [clean_space, clean_quote, clean_chars chars, clean_space, clean_cons (by decide),
        clean_space, value _ (endsSubject_append after ends), clean_space]
  | members before beforeColon beforeValue after chars _ _ value others =>
      intro rest ends
      simp only [List.append_assoc, List.cons_append]
      rw [clean_space, clean_quote, clean_chars chars, clean_space, clean_cons (by decide),
        clean_space, value _ (endsSubject_space after (by decide) _), clean_space,
        clean_cons (by decide)]
      exact others rest ends

/-- A piece of text that the parser reads and the scan passes is one of
RFC 8259. -/
theorem derives_of_clean {phrase : Phrase} {text : Bytes}
    (derives : Derives Dialect.accepted phrase text) :
    ∀ rest, EndsSubject rest → LexicallyClean (.outside 0) (text ++ rest) →
      Derives (Dialect.rfc8259 Dialect.accepted.encode) phrase text := by
  induction derives with
  | litNull =>
      intro rest _ _
      exact .litNull
  | litTrue =>
      intro rest _ _
      exact .litTrue
  | litFalse =>
      intro rest _ _
      exact .litFalse
  | number allowed =>
      intro rest ends clean
      rw [clean_number allowed ends] at clean
      exact .number clean.1
  | string chars =>
      intro rest _ clean
      rw [List.cons_append, clean_quote, List.append_assoc, List.singleton_append] at clean
      exact .string (chars_of_clean chars clean)
  | emptyArray space =>
      intro rest _ _
      exact .emptyArray space
  | array _ elements =>
      intro rest _ clean
      rw [List.cons_append, clean_cons (by decide), List.append_assoc,
        List.singleton_append] at clean
      exact .array (elements _ (endsSubject_cons (by decide) rest) clean)
  | emptyObject space =>
      intro rest _ _
      exact .emptyObject space
  | object _ list =>
      intro rest _ clean
      rw [List.cons_append, clean_cons (by decide), List.append_assoc,
        List.singleton_append] at clean
      exact .object (list _ (endsSubject_cons (by decide) rest) clean)
  | element before after _ value =>
      intro rest ends clean
      rw [List.append_assoc, clean_space, List.append_assoc] at clean
      exact .element before after (value _ (endsSubject_append after ends) clean)
  | elements before after _ _ value others =>
      intro rest ends clean
      rw [List.append_assoc, clean_space, List.append_assoc, List.append_assoc,
        List.cons_append] at clean
      have endsHere := endsSubject_space after (b := ascii ',') (by decide)
      have value' := value _ (endsHere _) clean
      rw [clean_of_derives value' _ (endsHere _), clean_space, clean_cons (by decide)] at clean
      exact .elements before after value' (others rest ends clean)
  | member before beforeColon beforeValue after chars _ value =>
      intro rest ends clean
      simp only [List.append_assoc, List.cons_append] at clean
      rw [clean_space, clean_quote] at clean
      have chars' := chars_of_clean chars clean
      rw [clean_chars chars', clean_space, clean_cons (by decide), clean_space] at clean
      exact .member before beforeColon beforeValue after chars'
        (value _ (endsSubject_append after ends) clean)
  | members before beforeColon beforeValue after chars _ _ value others =>
      intro rest ends clean
      simp only [List.append_assoc, List.cons_append] at clean
      rw [clean_space, clean_quote] at clean
      have chars' := chars_of_clean chars clean
      rw [clean_chars chars', clean_space, clean_cons (by decide), clean_space] at clean
      have endsHere := endsSubject_space after (b := ascii ',') (by decide)
      have value' := value _ (endsHere _) clean
      rw [clean_of_derives value' _ (endsHere _), clean_space, clean_cons (by decide)] at clean
      exact .members before beforeColon beforeValue after chars' value' (others rest ends clean)

end Scan

section Promise

theorem endsSubject_nil : EndsSubject [] := by
  intro b first
  cases first

/-- Every JSON text passes the scan. -/
theorem clean_of_isJsonText {text : Bytes} (json : IsJsonText text) :
    LexicallyClean (.outside 0) text := by
  obtain ⟨encode, tree, renders⟩ := json
  cases renders with
  | intro before after value =>
      rw [clean_space,
        clean_of_derives value _ (by simpa using endsSubject_append after endsSubject_nil)]
      have passed := clean_space after []
      rw [List.append_nil] at passed
      rw [passed]
      trivial

/-- A text of the parser's dialect that passes the scan is a JSON text. -/
theorem isJsonText_of_clean {tree : JsonTree Bytes} {text : Bytes}
    (renders : JsonText Dialect.accepted tree text) (clean : LexicallyClean (.outside 0) text) :
    IsJsonText text := by
  cases renders with
  | intro before after value =>
      rw [clean_space] at clean
      have ends : EndsSubject after.bytes := by
        simpa using endsSubject_append after endsSubject_nil
      exact ⟨_, tree, .intro before after (derives_of_clean value _ ends clean)⟩

variable {D : Type} [CDouble D]

/-- On a text of its dialect the parser keeps its promise only when the text
passes the scan. -/
theorem clean_of_parsesOnlyJson {text : CString} {tree : JsonTree Bytes}
    (promise : ParsesOnlyJson D text) (renders : JsonText Dialect.accepted tree text.bytes) :
    LexicallyClean (.outside 0) text.bytes := by
  have accepted := tenJsonParse_complete (D := D) ample_always text
    renders ⟨0, .ok, 0⟩
  obtain ⟨reply, after, run, parsed, promised⟩ := accepted.and (promise _ ⟨0, .ok, 0⟩)
  obtain ⟨json, rfl, -⟩ := parsed
  exact clean_of_isJsonText (promised.1 (by simp))

/-- The parser keeps its promise on a text exactly when the text is outside its
dialect or passes the scan, and no object of it can come to be out of step. -/
theorem parsesOnlyJson_iff_clean (text : CString) :
    ParsesOnlyJson D text ↔
      ((∃ tree, JsonText Dialect.accepted tree text.bytes) →
        LexicallyClean (.outside 0) text.bytes) ∧ Calm (.value text.bytes) := by
  constructor
  · intro promise
    refine ⟨?_, ?_⟩
    · rintro ⟨tree, renders⟩
      exact clean_of_parsesOnlyJson promise renders
    · rw [← tenJsonParse_unread_iff (D := D)]
      exact fun grants world => (promise grants world).mono fun _ _ promised => promised.2.2
  · rintro ⟨clean, calm⟩ grants world
    apply (tenJsonParse_sound text world).mono
    rintro reply after ⟨unread, accepts, fails⟩
    have json : reply ≠ none → IsJsonText text.bytes := by
      intro accepted
      obtain ⟨value, same⟩ := Option.ne_none_iff_exists'.mp accepted
      obtain ⟨tree, renders⟩ := accepts value same
      exact isJsonText_of_clean renders (clean ⟨tree, renders⟩)
    refine ⟨json, ?_, unread calm⟩
    intro notJson
    have refused : reply = none := by
      apply Classical.byContradiction
      intro accepted
      exact notJson (json accepted)
    exact ⟨refused, fails refused⟩

end Promise

/-- No JSON number has a zero before other digits. -/
theorem not_isJsonNumber_leadingZero {b : Byte} {rest : Bytes} (digit : isDigit b = true) :
    ¬ IsJsonNumber (ascii '0' :: b :: rest) := by
  intro number
  generalize token : ascii '0' :: b :: rest = text at number
  cases number with
  | intro sign integer fraction exponent =>
      rcases sign with rfl | rfl
      · cases integer with
        | zero =>
            cases fraction with
            | none =>
                cases exponent with
                | none => cases token
                | some marker _ _ =>
                    obtain ⟨-, tail⟩ := List.cons.inj token
                    obtain ⟨rfl, -⟩ := List.cons.inj tail
                    rcases marker with rfl | rfl
                    · cases digit
                    · cases digit
            | some _ =>
                obtain ⟨-, tail⟩ := List.cons.inj token
                obtain ⟨rfl, -⟩ := List.cons.inj tail
                cases digit
        | positive _ nonzero _ => exact nonzero (List.cons.inj token).1.symm
      · cases token

/-- The parser takes `01` for a value. -/
theorem not_parsesOnlyJson_leadingZero :
    ¬ ParsesOnlyJson Int ⟨asciiBytes ['0', '1'], by decide⟩ := by
  intro promise
  let none : Whitespace := ⟨[], by simp⟩
  have number : Dialect.accepted.number (asciiBytes ['0', '1']) :=
    ⟨by decide, ascii '0', [ascii '1'], rfl, .inr rfl⟩
  have renders : JsonText Dialect.accepted (.number (asciiBytes ['0', '1']))
      (asciiBytes ['0', '1']) := .intro none none (.number number)
  have clean := clean_of_parsesOnlyJson promise renders
  have token : IsJsonNumber _ ∧ LexicallyClean (.outside 0) [] :=
    (clean_number number endsSubject_nil).mp clean
  exact not_isJsonNumber_leadingZero (by decide) token.1

end Dotten
