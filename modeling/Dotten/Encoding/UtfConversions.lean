/-
Module: Dotten.Encoding.UtfConversions
Layer: Encoding
Purpose: Which texts the UTF functions accept, and that the conversions are
  inverse to each other.  The decoder takes the forms of surrogates for UTF-8,
  so that two of the three statements need a condition.
Imports: Dotten.Encoding.UtfWords
Main exports: EncodesSurrogate, tenUtf8Validate_exact_iff,
  utf8RoundTrip_iff, utf16RoundTrip
-/
import Dotten.Encoding.UtfWords

namespace Dotten

open Dotten.Library

/-- The text is made of shortest forms of code points, one of which is a
surrogate. -/
def EncodesSurrogate (text : Bytes) : Prop :=
  ∃ points, Spells IsCodePoint utf8Word points text ∧ ∃ cp ∈ points, IsSurrogate cp

section Spelled

variable {points : List Nat} {text : Bytes}

/-- Code points without surrogates are scalar values. -/
theorem spells_scalars (spells : Spells IsCodePoint utf8Word points text)
    (clean : ¬ EncodesSurrogate text) : Spells Nat.isValidChar utf8Word points text where
  valid cp member := isValidChar_iff.mpr ⟨spells.valid cp member, fun surrogate =>
    clean ⟨points, spells, cp, member, surrogate⟩⟩
  text := spells.text

theorem spells_codePoints (spells : Spells Nat.isValidChar utf8Word points text) :
    Spells IsCodePoint utf8Word points text where
  valid cp member := (isValidChar_iff.mp (spells.valid cp member)).1
  text := spells.text

/-- A well-formed text encodes no surrogate. -/
theorem not_encodesSurrogate_of_spells (spells : Spells Nat.isValidChar utf8Word points text) :
    ¬ EncodesSurrogate text := by
  rintro ⟨others, spellsOthers, cp, member, surrogate⟩
  obtain rfl := tenUtf8DecodeOne_reads.spells_unique spellsOthers (spells_codePoints spells)
  exact (isValidChar_iff.mp (spells.valid cp member)).2 surrogate

end Spelled

section Passes

variable {points : List Nat}

theorem tenUtf8CountUnits_of_spells {text : Bytes} (spells : Spells IsCodePoint utf8Word points text) :
    tenUtf8CountUnits text = pure (some (points.flatMap utf16Word).length) := by
  rw [tenUtf8CountUnits, tenUtf8DecodeOne_reads.scanWords_of_spells id (Nat.le_refl _) spells,
    foldl_length_word (fun cp _ => (length_utf16Word cp).symm), Nat.zero_add]

theorem tenUtf8CountUnits_of_not_spells {text : Bytes}
    (unspelled : ∀ points, ¬ Spells IsCodePoint utf8Word points text) :
    tenUtf8CountUnits text = (do
      tenSetError .encoding
      return none) := by
  rw [tenUtf8CountUnits, tenUtf8DecodeOne_reads.scanWords_of_not_spells (Nat.le_refl _) unspelled]

theorem tenUtf8WriteUnits_of_spells {text : Bytes} (spells : Spells IsCodePoint utf8Word points text) :
    tenUtf8WriteUnits text = pure (points.flatMap utf16Word) := by
  rw [tenUtf8WriteUnits, tenUtf8DecodeOne_reads.scanWords_of_spells id (Nat.le_refl _) spells,
    foldl_append_word (fun cp _ => tenUtf16Units_eq cp), List.nil_append]

theorem tenUtf16CountBytes_of_spells {units : List UInt16}
    (spells : Spells Nat.isValidChar utf16Word points units) :
    tenUtf16CountBytes units = pure (some (points.flatMap utf8Word).length) := by
  rw [tenUtf16CountBytes, tenUtf16DecodeOne_reads.scanWords_of_spells id (Nat.le_refl _) spells,
    foldl_length_word (fun cp _ => (length_utf8Word cp).symm), Nat.zero_add]

theorem tenUtf16CountBytes_of_not_spells {units : List UInt16}
    (unspelled : ∀ points, ¬ Spells Nat.isValidChar utf16Word points units) :
    tenUtf16CountBytes units = (do
      tenSetError .encoding
      return none) := by
  rw [tenUtf16CountBytes, tenUtf16DecodeOne_reads.scanWords_of_not_spells (Nat.le_refl _) unspelled]

theorem tenUtf16WriteBytes_of_spells {units : List UInt16}
    (spells : Spells Nat.isValidChar utf16Word points units) :
    tenUtf16WriteBytes units = pure (points.flatMap utf8Word) := by
  have words : ∀ cp ∈ points, tenUtf8Bytes cp = utf8Word cp :=
    fun cp member => tenUtf8Bytes_eq (isValidChar_iff.mp (spells.valid cp member)).1
  rw [tenUtf16WriteBytes, tenUtf16DecodeOne_reads.scanWords_of_spells
    tenUtf16DecodeChecked_of_decodeOne (Nat.le_refl _) spells, foldl_append_word words,
    List.nil_append]

end Passes

section Specifications

variable {grants : Schedule} {world : World}

/-- `ten_utf8_validate` accepts the sequences of shortest forms. -/
theorem tenUtf8Validate_spec (text : Bytes) :
    Returns (tenUtf8Validate (some text) text.length) grants world (fun reply _ =>
      reply = true ↔ ∃ points, Spells IsCodePoint utf8Word points text) := by
  simp only [tenUtf8Validate, reduceCtorEq, false_and, if_false, Option.getD_some,
    List.take_length]
  by_cases spelled : ∃ points, Spells IsCodePoint utf8Word points text
  · obtain ⟨points, spells⟩ := spelled
    rw [tenUtf8DecodeOne_reads.scanWords_of_spells id (Nat.le_refl _) spells]
    simp only [returns_bind, returns_tenSetError, returns_pure, true_iff]
    exact ⟨points, spells⟩
  · rw [tenUtf8DecodeOne_reads.scanWords_of_not_spells (Nat.le_refl _) (not_exists.mp spelled)]
    simp only [returns_bind, returns_tenSetError, returns_pure, iff_false_right spelled]
    exact Bool.false_ne_true

/-- `ten_utf8_to_utf16` of a sequence of shortest forms. -/
theorem tenUtf8ToUtf16_of_spells {text : CString} {points : List Nat}
    (spells : Spells IsCodePoint utf8Word points text.bytes) :
    Returns (tenUtf8ToUtf16 (some text)) grants world (fun reply _ =>
      (reply = none ∧ ¬ Ample grants) ∨
        reply = some (points.flatMap utf16Word, (points.flatMap utf16Word).length)) := by
  simp only [tenUtf8ToUtf16, tenUtf8CountUnits_of_spells spells, tenUtf8WriteUnits_of_spells spells,
    returns_bind, returns_pure, returns_tenMalloc, gt_iff_lt, lt_irrefl, if_false,
    returns_tenSetError]
  constructor
  · intro granted
    exact .inr trivial
  · intro refused
    exact .inl ⟨trivial, not_ample_of_refused refused⟩

/-- `ten_utf8_to_utf16` of any other text. -/
theorem tenUtf8ToUtf16_of_not_spells {text : CString}
    (unspelled : ∀ points, ¬ Spells IsCodePoint utf8Word points text.bytes) :
    Returns (tenUtf8ToUtf16 (some text)) grants world (fun reply after =>
      reply = none ∧ after.lastError = .encoding) := by
  simp only [tenUtf8ToUtf16, tenUtf8CountUnits_of_not_spells unspelled, returns_bind,
    returns_tenSetError, returns_pure]
  exact ⟨trivial, trivial⟩

/-- `ten_utf16_to_utf8` of a sequence of UTF-16 forms. -/
theorem tenUtf16ToUtf8_of_spells {units : List UInt16} {points : List Nat}
    (spells : Spells Nat.isValidChar utf16Word points units) :
    Returns (tenUtf16ToUtf8 (some units) units.length) grants world (fun reply _ =>
      (reply = none ∧ ¬ Ample grants) ∨
        reply = some (CString.ofMemory (points.flatMap utf8Word ++ [0]))) := by
  simp only [tenUtf16ToUtf8, reduceCtorEq, false_and, if_false, Option.getD_some,
    List.take_length, pure_bind, tenUtf16CountBytes_of_spells spells,
    tenUtf16WriteBytes_of_spells spells, returns_bind, returns_pure, returns_tenMalloc, gt_iff_lt,
    lt_irrefl, returns_tenSetError]
  constructor
  · intro granted
    exact .inr trivial
  · intro refused
    exact .inl ⟨trivial, not_ample_of_refused refused⟩

/-- `ten_utf16_to_utf8` of any other array. -/
theorem tenUtf16ToUtf8_of_not_spells {units : List UInt16}
    (unspelled : ∀ points, ¬ Spells Nat.isValidChar utf16Word points units) :
    Returns (tenUtf16ToUtf8 (some units) units.length) grants world (fun reply after =>
      reply = none ∧ after.lastError = .encoding) := by
  simp only [tenUtf16ToUtf8, tenUtf16CountBytes_of_not_spells unspelled, reduceCtorEq, false_and,
    if_false, Option.getD_some, List.take_length, returns_bind, returns_tenSetError, returns_pure]
  exact ⟨trivial, trivial⟩

end Specifications

section Validation

variable {grants : Schedule} {world : World}

/-- `ten_utf8_validate` is exact but for the forms of surrogates. -/
theorem tenUtf8Validate_exact_iff (text : Bytes) :
    Returns (tenUtf8Validate (some text) text.length) grants world (fun reply _ =>
        reply = true ↔ WellFormedUtf8 text) ↔ ¬ EncodesSurrogate text := by
  obtain ⟨reply, after, run, accepted⟩ :
      Returns (tenUtf8Validate (some text) text.length) grants world (fun reply _ =>
        reply = true ↔ ∃ points, Spells IsCodePoint utf8Word points text) :=
    tenUtf8Validate_spec text
  rw [returns_iff_of_run run, accepted, wellFormedUtf8_iff]
  constructor
  · rintro exact ⟨points, spells, surrogate⟩
    obtain ⟨scalars, spellsScalars⟩ := exact.mp ⟨points, spells⟩
    exact not_encodesSurrogate_of_spells spellsScalars ⟨points, spells, surrogate⟩
  · intro clean
    constructor
    · rintro ⟨points, spells⟩
      exact ⟨points, spells_scalars spells clean⟩
    · rintro ⟨points, spells⟩
      exact ⟨points, spells_codePoints spells⟩

/-- The form of the surrogate `U+D800`. -/
def surrogateForm : Bytes := [0xED, 0xA0, 0x80]

theorem encodesSurrogate_surrogateForm : EncodesSurrogate surrogateForm :=
  ⟨[0xD800], ⟨by decide, by decide⟩, 0xD800, by decide, by decide⟩

theorem tenUtf8Validate_not_exact_surrogate :
    ¬ Returns (tenUtf8Validate (some surrogateForm) 3) (fun _ => true) default (fun reply _ =>
      reply = true ↔ WellFormedUtf8 surrogateForm) := by
  intro exact
  have run : tenUtf8Validate (some surrogateForm) 3 (fun _ => true) default =
      some (true, default) := by decide
  rw [returns_iff_of_run run, wellFormedUtf8_iff] at exact
  obtain ⟨points, spells⟩ := exact.mp rfl
  exact not_encodesSurrogate_of_spells spells encodesSurrogate_surrogateForm

end Validation

section RoundTrips

variable {grants : Schedule} {world : World} (ample : Ample grants)

/-- From UTF-8 to UTF-16 and back: what the second function returns, where the
first succeeds. -/
def utf8RoundTrip (text : CString) : Ten (Option (Option CString)) := do
  let some (units, length) ← tenUtf8ToUtf16 (some text)
    | return none
  let back ← tenUtf16ToUtf8 (some units) length
  return some back

/-- From UTF-16 to UTF-8 and back: the text, and what the second function
returns. -/
def utf16RoundTrip (units : List UInt16) :
    Ten (Option (CString × Option (List UInt16 × Nat))) := do
  let some text ← tenUtf16ToUtf8 (some units) units.length
    | return none
  let back ← tenUtf8ToUtf16 (some text)
  return some (text, back)

/-- The units and the text encode the same characters. -/
def SameCharacters (units : List UInt16) (text : Bytes) : Prop :=
  ∃ points, Spells Nat.isValidChar utf16Word points units ∧
    Spells Nat.isValidChar utf8Word points text

/-- A string spells no null character. -/
theorem zero_notMem_of_spells {text : CString} {points : List Nat}
    (spells : Spells IsCodePoint utf8Word points text.bytes) : 0 ∉ points := by
  rw [← zero_mem_utf8_iff spells.valid, spells.text]
  exact text.noNul

/-- The text that is written for characters other than the null character. -/
theorem ofMemory_flatMap {points : List Nat} (valid : ∀ cp ∈ points, IsCodePoint cp)
    (noNull : 0 ∉ points) :
    (CString.ofMemory (points.flatMap utf8Word ++ [0])).bytes = points.flatMap utf8Word :=
  CString.takeWhile_append_nul ((zero_mem_utf8_iff valid).not.mpr noNull) []

include ample

/-- `ten_utf16_to_utf8` returns the text of the same characters. -/
theorem tenUtf16ToUtf8_characters {units : List UInt16} (noZero : (0 : UInt16) ∉ units) :
    Returns (tenUtf16ToUtf8 (some units) units.length) grants world (fun reply _ =>
      (reply.isSome = true ↔ WellFormedUtf16 units) ∧
        ∀ text, reply = some text ↔ SameCharacters units text.bytes) := by
  rw [wellFormedUtf16_iff]
  by_cases spelled : ∃ points, Spells Nat.isValidChar utf16Word points units
  · obtain ⟨points, spells⟩ := spelled
    have codePoints : ∀ cp ∈ points, IsCodePoint cp :=
      fun cp member => (isValidChar_iff.mp (spells.valid cp member)).1
    have noNull : 0 ∉ points := by
      rw [← zero_mem_utf16_iff codePoints, spells.text]
      exact noZero
    have bytes := ofMemory_flatMap codePoints noNull
    apply (tenUtf16ToUtf8_of_spells spells).mono
    rintro reply _ (⟨-, shortage⟩ | rfl)
    · exact absurd ample shortage
    refine ⟨iff_of_true rfl ⟨points, spells⟩, ?_⟩
    intro text
    constructor
    · rintro ⟨⟩
      refine ⟨points, spells, ?_⟩
      rw [bytes]
      exact spells_flatMap spells.valid
    · rintro ⟨others, spellsUnits, spellsText⟩
      obtain rfl := tenUtf16DecodeOne_reads.spells_unique spells spellsUnits
      refine congrArg some (CString.ext ?_)
      rw [bytes, spellsText.text]
  · apply (tenUtf16ToUtf8_of_not_spells (not_exists.mp spelled)).mono
    rintro reply _ ⟨rfl, -⟩
    refine ⟨iff_of_false Bool.false_ne_true spelled, ?_⟩
    intro text
    apply iff_of_false (by simp)
    rintro ⟨points, spells, -⟩
    exact spelled ⟨points, spells⟩

/-- A text comes back from UTF-16 exactly when it encodes no surrogate, unless
it is rejected. -/
theorem utf8RoundTrip_iff (text : CString) :
    Returns (utf8RoundTrip text) grants world (fun reply _ =>
        ∀ back, reply = some back → back = some text) ↔ ¬ EncodesSurrogate text.bytes := by
  by_cases spelled : ∃ points, Spells IsCodePoint utf8Word points text.bytes
  · obtain ⟨points, spells⟩ := spelled
    have noZero : (0 : UInt16) ∉ points.flatMap utf16Word := by
      rw [zero_mem_utf16_iff spells.valid]
      exact zero_notMem_of_spells spells
    obtain ⟨reply, between, run, outcome⟩ :
        Returns (tenUtf8ToUtf16 (some text)) grants world (fun reply _ =>
          (reply = none ∧ ¬ Ample grants) ∨
            reply = some (points.flatMap utf16Word, (points.flatMap utf16Word).length)) :=
      tenUtf8ToUtf16_of_spells spells
    obtain rfl := outcome.resolve_left fun shortage => shortage.2 ample
    obtain ⟨back, after, runBack, -, returned⟩ :
        Returns (tenUtf16ToUtf8 (some (points.flatMap utf16Word))
          (points.flatMap utf16Word).length) grants between (fun reply _ =>
            (reply.isSome = true ↔ WellFormedUtf16 (points.flatMap utf16Word)) ∧
              ∀ text, reply = some text ↔
                SameCharacters (points.flatMap utf16Word) text.bytes) :=
      tenUtf16ToUtf8_characters ample noZero
    rw [utf8RoundTrip, returns_bind, returns_iff_of_run run]
    dsimp only
    rw [returns_bind, returns_iff_of_run runBack, returns_pure]
    simp only [Option.some.injEq, forall_eq', returned]
    constructor
    · rintro ⟨scalars, -, spellsText⟩
      exact not_encodesSurrogate_of_spells spellsText
    · intro clean
      have scalars := spells_scalars spells clean
      exact ⟨points, spells_flatMap scalars.valid, scalars⟩
  · apply iff_of_true
    · simp only [utf8RoundTrip, returns_bind]
      apply (tenUtf8ToUtf16_of_not_spells (not_exists.mp spelled)).mono
      rintro reply _ ⟨rfl, -⟩
      rw [returns_pure]
      intro back impossible
      cases impossible
    · rintro ⟨points, spells, -⟩
      exact spelled ⟨points, spells⟩

/-- An array comes back from UTF-8, which it reaches exactly when it is
well-formed. -/
theorem utf16RoundTrip_spec {units : List UInt16} (noZero : (0 : UInt16) ∉ units) :
    Returns (utf16RoundTrip units) grants world (fun reply _ =>
      (reply.isSome = true ↔ WellFormedUtf16 units) ∧
        ∀ text back, reply = some (text, back) →
          WellFormedUtf8 text.bytes ∧ SameCharacters units text.bytes ∧
            back = some (units, units.length)) := by
  simp only [utf16RoundTrip, returns_bind]
  apply (tenUtf16ToUtf8_characters ample noZero).mono
  rintro reply _ ⟨accepted, returned⟩
  cases reply with
  | none =>
      rw [returns_pure]
      refine ⟨accepted, ?_⟩
      intro text back impossible
      cases impossible
  | some text =>
      obtain ⟨points, spellsUnits, spellsText⟩ := (returned text).mp rfl
      simp only [returns_bind, returns_pure]
      apply (tenUtf8ToUtf16_of_spells (spells_codePoints spellsText)).mono
      rintro back _ (⟨-, shortage⟩ | rfl)
      · exact absurd ample shortage
      refine ⟨accepted, ?_⟩
      rintro _ _ ⟨⟩
      rw [spellsUnits.text]
      exact ⟨wellFormedUtf8_iff.mpr ⟨points, spellsText⟩, ⟨points, spellsUnits, spellsText⟩, rfl⟩

end RoundTrips

/-- An ASCII letter, a Hangul syllable and an emoji. -/
def mixedText : CString := CString.ofMemory [0x41, 0xEA, 0xB0, 0x80, 0xF0, 0x9F, 0x98, 0x80, 0]

theorem spells_mixedText :
    Spells Nat.isValidChar utf8Word [0x41, 0xAC00, 0x1F600] mixedText.bytes where
  valid := by decide
  text := by decide

theorem utf8RoundTrip_iff_mixed :
    Returns (utf8RoundTrip mixedText) (fun _ => true) default (fun reply _ =>
      ∀ back, reply = some back → back = some mixedText) :=
  (utf8RoundTrip_iff ample_always mixedText).mpr (not_encodesSurrogate_of_spells spells_mixedText)

/-- The surrogate becomes a unit that `ten_utf16_to_utf8` rejects. -/
theorem utf8RoundTrip_not_surrogate :
    ¬ Returns (utf8RoundTrip (CString.ofMemory surrogateForm)) (fun _ => true) default
      (fun reply _ => ∀ back, reply = some back →
        back = some (CString.ofMemory surrogateForm)) := by
  intro comesBack
  have run : utf8RoundTrip (CString.ofMemory surrogateForm) (fun _ => true) default =
      some (some none, { requests := 1, lastError := .encoding }) := by decide
  rw [returns_iff_of_run run] at comesBack
  cases comesBack none rfl

theorem utf16RoundTrip_spec_mixed :
    Returns (utf16RoundTrip [0x41, 0xAC00, 0xD83D, 0xDE00]) (fun _ => true) default
      (fun reply _ =>
        (reply.isSome = true ↔ WellFormedUtf16 [0x41, 0xAC00, 0xD83D, 0xDE00]) ∧
          ∀ text back, reply = some (text, back) →
            WellFormedUtf8 text.bytes ∧
              SameCharacters [0x41, 0xAC00, 0xD83D, 0xDE00] text.bytes ∧
              back = some ([0x41, 0xAC00, 0xD83D, 0xDE00], 4)) :=
  utf16RoundTrip_spec ample_always (by decide)

end Dotten
