/-
Module: Dotten.Core.Strtod
Layer: Core
Purpose: What the library relies on in the C library's floating-point
  conversions in the C locale: the language of `strtod`, and the operations of
  `double`, as a class that a development instantiates with its doubles.
Imports: Dotten.Core.CString
Main exports: isSubjectSequence, strtodLen, CDouble, strtodLen_append
-/
import Dotten.Core.CString
import Mathlib.Data.List.Basic
import Mathlib.Data.Nat.Find

namespace Dotten

/-- `isdigit`. -/
def isDigit (b : Byte) : Bool := '0'.toNat ≤ b.toNat && b.toNat ≤ '9'.toNat

/-- `isxdigit`. -/
def isHexDigit (b : Byte) : Bool :=
  isDigit b || ('a'.toNat ≤ b.toNat && b.toNat ≤ 'f'.toNat) ||
    ('A'.toNat ≤ b.toNat && b.toNat ≤ 'F'.toNat)

/-- `isalpha`. -/
def isLetter (b : Byte) : Bool :=
  ('a'.toNat ≤ b.toNat && b.toNat ≤ 'z'.toNat) || ('A'.toNat ≤ b.toNat && b.toNat ≤ 'Z'.toNat)

/-- `tolower` of an ASCII byte. -/
def asciiLower (b : Byte) : Byte :=
  if 'A'.toNat ≤ b.toNat ∧ b.toNat ≤ 'Z'.toNat then b + 32 else b

/-- The text without a leading sign. -/
def dropSign : Bytes → Bytes
  | [] => []
  | b :: rest => if b = ascii '+' ∨ b = ascii '-' then rest else b :: rest

/-- An exponent part: the marker, an optional sign, at least one digit. -/
def isExponentPart (marker : Byte) : Bytes → Bool
  | [] => false
  | b :: rest => asciiLower b = marker && (dropSign rest).length ≠ 0 && (dropSign rest).all isDigit

/-- At least one digit, and at most one point among them. -/
def isMantissa (digit : Byte → Bool) (s : Bytes) : Bool :=
  match s.dropWhile digit with
  | [] => s.length ≠ 0
  | point :: fraction => point = ascii '.' && fraction.all digit && s.length ≠ 1

/-- A mantissa and an optional exponent part. -/
def isFloatingSequence (digit : Byte → Bool) (marker : Byte) (s : Bytes) : Bool :=
  (List.range (s.length + 1)).any fun n =>
    isMantissa digit (s.take n) && ((s.drop n).length = 0 || isExponentPart marker (s.drop n))

/-- The forms of a subject sequence after its sign. -/
def isUnsignedSubject (s : Bytes) : Bool :=
  isFloatingSequence isDigit (ascii 'e') s ||
    (s.take 1 = asciiBytes ['0'] && (s.drop 1).take 1 ∈ [asciiBytes ['x'], asciiBytes ['X']] &&
      isFloatingSequence isHexDigit (ascii 'p') (s.drop 2)) ||
    s.map asciiLower ∈
      [asciiBytes ['i', 'n', 'f'], asciiBytes ['i', 'n', 'f', 'i', 'n', 'i', 't', 'y'],
        asciiBytes ['n', 'a', 'n']] ||
    ((s.take 4).map asciiLower = asciiBytes ['n', 'a', 'n', '('] &&
      (s.drop 4).dropLast.all (fun b => isDigit b || isLetter b || b = ascii '_') &&
      (s.drop 4).getLast? = some (ascii ')'))

/-- The subject sequences of `strtod` (C99, 7.20.1.3): an optional sign before
a decimal or hexadecimal floating form, an infinity or a NaN. -/
def isSubjectSequence (s : Bytes) : Bool := isUnsignedSubject (dropSign s)

/-- How far `strtod` moves `*endptr` on a text that does not start with white
space: to the end of the longest prefix that is a subject sequence. -/
def strtodLen (text : Bytes) : Nat :=
  Nat.findGreatest (fun n => isSubjectSequence (text.take n) = true) text.length

/-- The doubles of the platform, as far as the library computes with them. -/
class CDouble (D : Type) where
  /-- The value of a subject sequence. -/
  strtod : Bytes → D
  /-- `(double)(long long)`. -/
  ofLongLong : Int → D
  /-- `(long long)v`. -/
  toLongLong : D → Int
  /-- `==`. -/
  eq : D → D → Bool
  /-- `<`. -/
  lt : D → D → Bool
  /-- `"%.17g"`. -/
  formatG17 : D → CString

/-- The bytes that occur in subject sequences. -/
def isSubjectByte (b : Byte) : Bool :=
  isDigit b || isLetter b || b = ascii '_' || b = ascii '+' || b = ascii '-' || b = ascii '.' ||
    b = ascii '(' || b = ascii ')'

section SubjectBytes

theorem isSubjectByte_of_isDigit : ∀ b, isDigit b = true → isSubjectByte b = true := by
  apply forall_byte
  decide

theorem isSubjectByte_of_isHexDigit : ∀ b, isHexDigit b = true → isSubjectByte b = true := by
  apply forall_byte
  decide

/-- A byte that is a letter or a parenthesis in lower case is a subject byte. -/
theorem isSubjectByte_of_lower : ∀ b, (isLetter (asciiLower b) || asciiLower b = ascii '(') = true →
    isSubjectByte b = true := by
  apply forall_byte
  decide

theorem isSubjectByte_of_nChar : ∀ b, (isDigit b || isLetter b || b = ascii '_') = true →
    isSubjectByte b = true := by
  apply forall_byte
  decide

theorem mem_dropSign {s : Bytes} {b : Byte} (member : b ∈ s) :
    b = ascii '+' ∨ b = ascii '-' ∨ b ∈ dropSign s := by
  cases s with
  | nil => cases member
  | cons first rest =>
      rw [dropSign]
      split
      · rename_i sign
        rcases List.mem_cons.mp member with rfl | later
        · rcases sign with plus | minus
          · exact .inl plus
          · exact .inr (.inl minus)
        · exact .inr (.inr later)
      · exact .inr (.inr member)

theorem subject_of_dropSign {s : Bytes} (inside : ∀ b ∈ dropSign s, isSubjectByte b = true) :
    ∀ b ∈ s, isSubjectByte b = true := by
  intro b member
  rcases mem_dropSign member with rfl | rfl | later
  · decide
  · decide
  · exact inside b later

theorem subject_of_isExponentPart {marker : Byte} (letter : isLetter marker = true) {s : Bytes}
    (exponent : isExponentPart marker s = true) : ∀ b ∈ s, isSubjectByte b = true := by
  cases s with
  | nil => simp
  | cons first rest =>
      simp only [isExponentPart, Bool.and_eq_true, decide_eq_true_eq, List.all_eq_true]
        at exponent
      obtain ⟨⟨isMarker, -⟩, digits⟩ := exponent
      intro b member
      rcases List.mem_cons.mp member with rfl | later
      · apply isSubjectByte_of_lower
        rw [isMarker, letter]
        rfl
      · exact subject_of_dropSign (fun c inside => isSubjectByte_of_isDigit c (digits c inside))
          b later

theorem subject_of_isMantissa {digit : Byte → Bool}
    (digits : ∀ b, digit b = true → isSubjectByte b = true) {s : Bytes}
    (mantissa : isMantissa digit s = true) : ∀ b ∈ s, isSubjectByte b = true := by
  intro b member
  rw [← List.takeWhile_append_dropWhile (p := digit) (l := s), List.mem_append] at member
  rcases member with whole | rest
  · exact digits b (List.mem_takeWhile_imp whole)
  · rw [isMantissa] at mantissa
    split at mantissa
    · rename_i empty
      rw [empty] at rest
      cases rest
    · rename_i point fraction split
      simp only [Bool.and_eq_true, decide_eq_true_eq, List.all_eq_true] at mantissa
      rw [split, List.mem_cons] at rest
      rcases rest with rfl | later
      · rw [mantissa.1.1]
        decide
      · exact digits b (mantissa.1.2 b later)

theorem subject_of_isFloatingSequence {digit : Byte → Bool} {marker : Byte}
    (digits : ∀ b, digit b = true → isSubjectByte b = true) (letter : isLetter marker = true)
    {s : Bytes} (floating : isFloatingSequence digit marker s = true) :
    ∀ b ∈ s, isSubjectByte b = true := by
  simp only [isFloatingSequence, List.any_eq_true, Bool.and_eq_true, Bool.or_eq_true,
    decide_eq_true_eq] at floating
  obtain ⟨n, -, mantissa, rest⟩ := floating
  intro b member
  rw [← List.take_append_drop n s, List.mem_append] at member
  rcases member with before | after
  · exact subject_of_isMantissa digits mantissa b before
  · rcases rest with empty | exponent
    · rw [List.eq_nil_of_length_eq_zero empty] at after
      cases after
    · exact subject_of_isExponentPart letter exponent b after

/-- A subject sequence has subject bytes only, so it ends where another byte
begins. -/
theorem subject_of_isSubjectSequence {s : Bytes} (subject : isSubjectSequence s = true) :
    ∀ b ∈ s, isSubjectByte b = true := by
  apply subject_of_dropSign
  rw [isSubjectSequence, isUnsignedSubject, Bool.or_eq_true, Bool.or_eq_true,
    Bool.or_eq_true] at subject
  rcases subject with ((decimal | hexadecimal) | word) | nanSequence
  · exact subject_of_isFloatingSequence isSubjectByte_of_isDigit (by decide) decimal
  · simp only [Bool.and_eq_true, decide_eq_true_eq] at hexadecimal
    obtain ⟨⟨zero, x⟩, floating⟩ := hexadecimal
    intro b member
    rw [← List.take_append_drop 2 (dropSign s), List.mem_append] at member
    rcases member with marker | rest
    · rw [List.take_add (i := 1) (j := 1), zero] at marker
      have characters : ∀ x ∈ [asciiBytes ['x'], asciiBytes ['X']],
          (asciiBytes ['0'] ++ x).all isSubjectByte = true := forall_mem_of_all (by decide)
      exact List.all_eq_true.mp (characters _ x) b marker
    · exact subject_of_isFloatingSequence isSubjectByte_of_isHexDigit (by decide) floating b rest
  · intro b member
    have letters : ∀ word ∈ [asciiBytes ['i', 'n', 'f'],
        asciiBytes ['i', 'n', 'f', 'i', 'n', 'i', 't', 'y'], asciiBytes ['n', 'a', 'n']],
        (word.all fun c => isLetter c || c = ascii '(') = true :=
      forall_mem_of_all (by decide)
    have all := List.all_eq_true.mp (letters _ (of_decide_eq_true word))
    exact isSubjectByte_of_lower b (all _ (List.mem_map_of_mem member))
  · simp only [Bool.and_eq_true, decide_eq_true_eq, List.all_eq_true] at nanSequence
    obtain ⟨⟨marker, characters⟩, close⟩ := nanSequence
    intro b member
    rw [← List.take_append_drop 4 (dropSign s), List.mem_append] at member
    rcases member with before | after
    · have lowered : asciiLower b ∈ asciiBytes ['n', 'a', 'n', '('] := by
        rw [← marker]
        exact List.mem_map_of_mem before
      have letters : ∀ c ∈ asciiBytes ['n', 'a', 'n', '('],
          (isLetter c || c = ascii '(') = true := forall_mem_of_all (by decide)
      exact isSubjectByte_of_lower b (letters _ lowered)
    · rw [← List.dropLast_append_getLast? _ close, List.mem_append, List.mem_singleton] at after
      rcases after with inside | rfl
      · exact isSubjectByte_of_nChar b (characters b inside)
      · decide

end SubjectBytes

section LongestPrefix

/-- What `strtod` converts is a subject sequence. -/
theorem isSubjectSequence_take_strtodLen {text : Bytes} (some : strtodLen text ≠ 0) :
    isSubjectSequence (text.take (strtodLen text)) = true :=
  (Nat.findGreatest_eq_iff.mp rfl).2.1 some

/-- A text after which no subject sequence goes on. -/
def EndsSubject (rest : Bytes) : Prop :=
  ∀ b ∈ rest.head?, isSubjectByte b = false

/-- `strtod` stops at the end of a subject sequence that nothing continues. -/
theorem strtodLen_append {token rest : Bytes} (subject : isSubjectSequence token = true)
    (ends : EndsSubject rest) : strtodLen (token ++ rest) = token.length := by
  rw [strtodLen, Nat.findGreatest_eq_iff]
  refine ⟨by simp, fun _ => ?_, ?_⟩
  · rw [List.take_left]
    exact subject
  · intro n longer within taken
    -- a longer prefix holds the first byte of `rest`
    cases rest with
    | nil =>
        rw [List.append_nil] at within
        omega
    | cons b rest =>
        have inside : b ∈ (token ++ b :: rest).take n := by
          rw [List.take_append, List.mem_append]
          right
          cases more : n - token.length with
          | zero => omega
          | succ m =>
              rw [List.take_succ_cons]
              exact List.mem_cons_self
        have stops := ends b rfl
        rw [subject_of_isSubjectSequence taken b inside] at stops
        cases stops

end LongestPrefix

example : strtodLen (asciiBytes ['0', 'x', '1', 'p', '-', '2', ',']) = 6 := by decide

end Dotten
