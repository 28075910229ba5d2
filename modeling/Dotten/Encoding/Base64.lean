/-
Module: Dotten.Encoding.Base64
Layer: Encoding
Purpose: The Base64 round trip, and which texts the decoder accepts: it looks
  at each group alone, so that padding may stand inside the text.
Imports: Dotten.Encoding.TenBase64, Dotten.Library.Bits
Main exports: IsBase64, base64RoundTrip_spec, PaddedInside,
  tenBase64Decode_exact_iff
-/
import Dotten.Encoding.TenBase64
import Dotten.Library.Bits

namespace Dotten

open Dotten.Library

/-- A text of the Base64 alphabet in groups of four characters, the last of
which `pad` padding characters fill. -/
structure IsBase64 (text : Bytes) (pad : Nat) : Prop where
  groups : 4 ∣ text.length
  few : pad ≤ 2
  split : ∃ body, text = body ++ List.replicate pad (ascii '=') ∧ ∀ b ∈ body, b ∈ tenBase64Alphabet

namespace Base64Group

/-- Four characters of the alphabet, or three or two that are filled up. -/
def WellFormed (group : Base64Group) : Prop :=
  group.c0 ∈ tenBase64Alphabet ∧ group.c1 ∈ tenBase64Alphabet ∧
    ((group.c2 ∈ tenBase64Alphabet ∧ group.c3 ∈ tenBase64Alphabet) ∨
      (group.c2 ∈ tenBase64Alphabet ∧ group.c3 = ascii '=') ∨
      (group.c2 = ascii '=' ∧ group.c3 = ascii '='))

/-- The number of padding characters of a well-formed group. -/
def pad (group : Base64Group) : Nat := if group.pad2 then 2 else if group.pad3 then 1 else 0

end Base64Group

/-- A text of well-formed groups, one of which is filled up before the last. -/
def PaddedInside (text : Bytes) : Prop :=
  ∃ groups, Spells Base64Group.WellFormed Base64Group.text groups text ∧
    ∃ group ∈ groups.dropLast, group.pad ≠ 0

section Alphabet

/-- The values of the characters. -/
theorem tenBase64Value_char {value : Nat} (small : value < 64) :
    tenBase64Value (tenBase64Char value) = value := by
  have all : ∀ value : Fin 64, tenBase64Value (tenBase64Char value.val) = value.val := by decide
  exact all ⟨value, small⟩

theorem tenBase64Char_mem {value : Nat} (small : value < 64) :
    tenBase64Char value ∈ tenBase64Alphabet := by
  have all : ∀ value : Fin 64, tenBase64Char value.val ∈ tenBase64Alphabet := by decide
  exact all ⟨value, small⟩

/-- `ten__base64_value` fails outside the alphabet. -/
theorem tenBase64Value_neg_iff (b : Byte) : tenBase64Value b < 0 ↔ b ∉ tenBase64Alphabet := by
  constructor
  · have all : ∀ b ∈ tenBase64Alphabet, ¬ tenBase64Value b < 0 := forall_mem_of_all (by decide)
    intro negative member
    exact all b member negative
  · have bounded : ∀ b : Byte, tenBase64Value b < 64 := by
      apply forall_byte
      decide
    have inverse : ∀ b : Byte, 0 ≤ tenBase64Value b → tenBase64Char (tenBase64Value b).toNat = b := by
      apply forall_byte
      decide
    intro outside
    by_contra valued
    have nonnegative := Int.not_lt.mp valued
    apply outside
    rw [← inverse b nonnegative]
    apply tenBase64Char_mem
    have := bounded b
    omega

theorem equals_notMem : ascii '=' ∉ tenBase64Alphabet := by decide

theorem zero_notMem : (0 : Byte) ∉ tenBase64Alphabet := by decide

end Alphabet

section Groups

/-- The decoder rejects the groups that are not well-formed. -/
theorem rejected_iff (group : Base64Group) : group.Rejected ↔ ¬ group.WellFormed := by
  have first : group.a < 0 ↔ group.c0 ∉ tenBase64Alphabet := tenBase64Value_neg_iff _
  have second : group.b < 0 ↔ group.c1 ∉ tenBase64Alphabet := tenBase64Value_neg_iff _
  have apart := equals_notMem
  unfold Base64Group.Rejected Base64Group.WellFormed
  rw [first, second]
  unfold Base64Group.c Base64Group.d Base64Group.pad2 Base64Group.pad3
  by_cases pad2 : group.c2 = ascii '='
  · by_cases pad3 : group.c3 = ascii '='
    · simp [pad2, pad3, apart]
      tauto
    · simp only [pad2, pad3, decide_true, decide_false, apart, false_and, and_false, or_false]
      simp
  · by_cases pad3 : group.c3 = ascii '='
    · simp [pad2, pad3, apart, tenBase64Value_neg_iff]
      tauto
    · simp [pad2, pad3, tenBase64Value_neg_iff]
      tauto

/-- The decoder reads a text group by group. -/
theorem tenBase64DecodeOne_reads :
    Reads Base64Group.WellFormed Base64Group.text tenBase64DecodeOne where
  nonempty := by
    intro group _
    exact List.cons_ne_nil _ _
  next_iff := by
    intro text group n
    rcases text with _ | ⟨c0, _ | ⟨c1, _ | ⟨c2, _ | ⟨c3, rest⟩⟩⟩⟩
    iterate 4
      apply iff_of_false (by simp [tenBase64DecodeOne])
      rintro ⟨-, starts, -⟩
      exact absurd starts.length_le (by simp [Base64Group.text])
    have starts : group.text <+: c0 :: c1 :: c2 :: c3 :: rest ↔ group = ⟨c0, c1, c2, c3⟩ := by
      cases group
      simp [Base64Group.text, List.cons_prefix_cons]
    rw [starts]
    unfold tenBase64DecodeOne
    dsimp only
    by_cases wellFormed : Base64Group.WellFormed ⟨c0, c1, c2, c3⟩
    · rw [if_neg ((rejected_iff _).not.mpr (not_not_intro wellFormed)), Option.some.injEq,
        Prod.mk.injEq]
      constructor
      · rintro ⟨rfl, rfl⟩
        exact ⟨wellFormed, rfl, rfl⟩
      · rintro ⟨-, rfl, rfl⟩
        exact ⟨rfl, rfl⟩
    · rw [if_pos ((rejected_iff _).mpr wellFormed)]
      apply iff_of_false (by simp)
      rintro ⟨impossible, rfl, -⟩
      exact wellFormed impossible

/-- The three kinds of well-formed groups. -/
theorem wellFormed_cases {group : Base64Group} (wellFormed : group.WellFormed) :
    (group.pad2 = false ∧ group.pad3 = false ∧ group.c2 ∈ tenBase64Alphabet ∧
        group.c3 ∈ tenBase64Alphabet) ∨
      (group.pad2 = false ∧ group.pad3 = true ∧ group.c2 ∈ tenBase64Alphabet ∧
        group.c3 = ascii '=') ∨
      (group.pad2 = true ∧ group.pad3 = true ∧ group.c2 = ascii '=' ∧ group.c3 = ascii '=') := by
  have plain : ∀ {b : Byte}, b ∈ tenBase64Alphabet → decide (b = ascii '=') = false :=
    fun member => decide_eq_false (ne_of_mem_of_not_mem member equals_notMem)
  obtain ⟨-, -, ⟨c2, c3⟩ | ⟨c2, c3⟩ | ⟨c2, c3⟩⟩ := wellFormed
  · exact .inl ⟨plain c2, plain c3, c2, c3⟩
  · exact .inr (.inl ⟨plain c2, decide_eq_true c3, c2, c3⟩)
  · exact .inr (.inr ⟨decide_eq_true c2, decide_eq_true c3, c2, c3⟩)

/-- A group stands for three bytes, less one for each padding character. -/
theorem length_bytes {group : Base64Group} (wellFormed : group.WellFormed) :
    group.bytes.length + group.pad = 3 := by
  rcases wellFormed_cases wellFormed with ⟨pad2, pad3, -⟩ | ⟨pad2, pad3, -⟩ | ⟨pad2, pad3, -⟩
  · simp [Base64Group.bytes, Base64Group.pad, pad2, pad3]
  · simp [Base64Group.bytes, Base64Group.pad, pad2, pad3]
  · simp [Base64Group.bytes, Base64Group.pad, pad2, pad3]

variable {groups : List Base64Group}

theorem length_flatMap_text (groups : List Base64Group) :
    (groups.flatMap Base64Group.text).length = 4 * groups.length := by
  simp [List.length_flatMap, Base64Group.text, Nat.mul_comm]

/-- The padding characters of groups. -/
def padding (groups : List Base64Group) : Nat := (groups.map Base64Group.pad).sum

theorem length_flatMap_bytes (wellFormed : ∀ group ∈ groups, group.WellFormed) :
    (groups.flatMap Base64Group.bytes).length + padding groups = 3 * groups.length := by
  induction groups with
  | nil => rfl
  | cons group groups inductionHypothesis =>
      obtain ⟨here, later⟩ := List.forall_mem_cons.mp wellFormed
      have first := length_bytes here
      have rest := inductionHypothesis later
      simp only [padding, List.flatMap_cons, List.length_append, List.map_cons, List.sum_cons,
        List.length_cons] at rest ⊢
      omega

end Groups

section Decoder

variable {grants : Schedule} {world : World} {text : CString} {groups : List Base64Group}

/-- `ten_base64_decode` of a text of well-formed groups. -/
theorem tenBase64Decode_of_spells
    (spells : Spells Base64Group.WellFormed Base64Group.text groups text.bytes) :
    Returns (tenBase64Decode (some text)) grants world (fun reply _ =>
      (reply = none ∧ ¬ Ample grants) ∨
        reply = some (groups.flatMap Base64Group.bytes,
          (groups.flatMap Base64Group.bytes).length)) := by
  have characters : text.length = 4 * groups.length := by
    rw [CString.length, ← spells.text, length_flatMap_text]
  have fits : ¬ (groups.flatMap Base64Group.bytes).length > text.length / 4 * 3 := by
    have total := length_flatMap_bytes spells.valid
    omega
  have enough : text.bytes.length ≤ text.length := Nat.le_refl _
  rw [tenBase64Decode]
  apply returns_ite
  · intro odd
    omega
  · intro _
    simp only [returns_bind, returns_tenMalloc,
      tenBase64DecodeOne_reads.scanWords_of_spells id enough spells,
      foldl_append_word (fun group _ => rfl), List.nil_append, if_neg fits, returns_tenSetError,
      returns_pure]
    constructor
    · intro granted
      exact .inr trivial
    · intro refused
      exact .inl ⟨trivial, not_ample_of_refused refused⟩

/-- `ten_base64_decode` of any other text. -/
theorem tenBase64Decode_of_not_spells
    (unspelled : ∀ groups, ¬ Spells Base64Group.WellFormed Base64Group.text groups text.bytes) :
    Returns (tenBase64Decode (some text)) grants world (fun reply _ => reply = none) := by
  have enough : text.bytes.length ≤ text.length := Nat.le_refl _
  rw [tenBase64Decode]
  apply returns_ite
  · intro _
    simp only [returns_bind, returns_tenSetError, returns_pure]
  · intro _
    simp only [returns_bind, returns_tenMalloc,
      tenBase64DecodeOne_reads.scanWords_of_not_spells enough unspelled,
      returns_tenSetError, returns_pure, implies_true, and_self]

end Decoder

/-! ### The language -/

section Language

/-- A group is characters of the alphabet, two at least, and its padding. -/
theorem text_eq {group : Base64Group} (wellFormed : group.WellFormed) :
    ∃ body, group.text = body ++ List.replicate group.pad (ascii '=') ∧
      ∀ b ∈ body, b ∈ tenBase64Alphabet := by
  have first := wellFormed.1
  have second := wellFormed.2.1
  rcases wellFormed_cases wellFormed with
    ⟨pad2, pad3, c2, c3⟩ | ⟨pad2, pad3, c2, c3⟩ | ⟨pad2, pad3, c2, c3⟩
  · refine ⟨group.text, ?_, ?_⟩
    · simp [Base64Group.pad, pad2, pad3]
    · simp [Base64Group.text, first, second, c2, c3]
  · refine ⟨[group.c0, group.c1, group.c2], ?_, by simp [first, second, c2]⟩
    simp [Base64Group.text, Base64Group.pad, pad2, pad3, c3]
  · refine ⟨[group.c0, group.c1], ?_, by simp [first, second]⟩
    simp [Base64Group.text, Base64Group.pad, pad2, c2, c3, List.replicate]

theorem pad_le_two (group : Base64Group) : group.pad ≤ 2 := by
  unfold Base64Group.pad
  split_ifs <;> decide

/-- Four characters of the alphabet are a group without padding. -/
theorem wellFormed_of_alphabet {group : Base64Group}
    (alphabet : ∀ b ∈ group.text, b ∈ tenBase64Alphabet) : group.WellFormed ∧ group.pad = 0 := by
  simp only [Base64Group.text, List.forall_mem_cons] at alphabet
  obtain ⟨c0, c1, c2, c3, -⟩ := alphabet
  have wellFormed : group.WellFormed := ⟨c0, c1, .inl ⟨c2, c3⟩⟩
  refine ⟨wellFormed, ?_⟩
  have pad2 := ne_of_mem_of_not_mem c2 equals_notMem
  have pad3 := ne_of_mem_of_not_mem c3 equals_notMem
  simp [Base64Group.pad, Base64Group.pad2, Base64Group.pad3, pad2, pad3]

theorem padding_cons (group : Base64Group) (groups : List Base64Group) :
    padding (group :: groups) = group.pad + padding groups := List.sum_cons

/-- Another group in front of groups of which only the last is filled up. -/
theorem inside_cons {group : Base64Group} {groups : List Base64Group} (unpadded : group.pad = 0)
    (inside : ∀ group ∈ groups.dropLast, group.pad = 0) :
    ∀ other ∈ (group :: groups).dropLast, other.pad = 0 := by
  cases groups with
  | nil => simp
  | cons next groups =>
      rw [List.dropLast_cons_cons]
      exact List.forall_mem_cons.mpr ⟨unpadded, inside⟩

/-- Well-formed groups of which only the last is filled up make a Base64 text. -/
theorem isBase64_of_groups {groups : List Base64Group}
    (wellFormed : ∀ group ∈ groups, group.WellFormed)
    (inside : ∀ group ∈ groups.dropLast, group.pad = 0) :
    IsBase64 (groups.flatMap Base64Group.text) (padding groups) := by
  induction groups with
  | nil => exact ⟨by simp, by decide, [], rfl, by simp⟩
  | cons group groups inductionHypothesis =>
      obtain ⟨here, later⟩ := List.forall_mem_cons.mp wellFormed
      obtain ⟨body, text, alphabet⟩ := text_eq here
      have length := length_flatMap_text (group :: groups)
      cases groups with
      | nil =>
          refine ⟨⟨_, length⟩, pad_le_two group, body, ?_, alphabet⟩
          rw [List.flatMap_singleton]
          exact text
      | cons next groups =>
          rw [List.dropLast_cons_cons, List.forall_mem_cons] at inside
          obtain ⟨-, few, bodies, texts, alphabets⟩ := inductionHypothesis later inside.2
          rw [inside.1, List.replicate_zero, List.append_nil] at text
          rw [padding_cons, inside.1, Nat.zero_add]
          refine ⟨⟨_, length⟩, few, body ++ bodies, ?_, List.forall_mem_append.mpr
            ⟨alphabet, alphabets⟩⟩
          rw [List.flatMap_cons, text, texts, List.append_assoc]

/-- A Base64 text is made of such groups. -/
theorem groups_of_isBase64 {text : Bytes} {pad : Nat} (base64 : IsBase64 text pad) :
    ∃ groups, Spells Base64Group.WellFormed Base64Group.text groups text ∧
      (∀ group ∈ groups.dropLast, group.pad = 0) ∧ padding groups = pad := by
  obtain ⟨whole, few, body, rfl, alphabet⟩ := base64
  rw [List.length_append, List.length_replicate] at whole
  have single : ∀ {group : Base64Group}, group.WellFormed →
      Spells Base64Group.WellFormed Base64Group.text [group] group.text := fun wellFormed =>
    ⟨List.forall_mem_singleton.mpr wellFormed, List.flatMap_singleton _ _⟩
  induction size : body.length using Nat.strong_induction_on generalizing body with
  | _ size inductionHypothesis =>
      rcases body with _ | ⟨c0, _ | ⟨c1, _ | ⟨c2, _ | ⟨c3, rest⟩⟩⟩⟩
      · obtain rfl : pad = 0 := by
          rw [List.length_nil] at whole
          omega
        exact ⟨[], spells_nil, by simp, rfl⟩
      · rw [List.length_singleton] at whole
        omega
      · obtain rfl : pad = 2 := by
          simp only [List.length_cons, List.length_nil] at whole
          omega
        simp only [List.forall_mem_cons] at alphabet
        refine ⟨[⟨c0, c1, ascii '=', ascii '='⟩], single ?_, by simp, rfl⟩
        exact ⟨alphabet.1, alphabet.2.1, .inr (.inr ⟨rfl, rfl⟩)⟩
      · obtain rfl : pad = 1 := by
          simp only [List.length_cons, List.length_nil] at whole
          omega
        simp only [List.forall_mem_cons] at alphabet
        obtain ⟨mem0, mem1, mem2, -⟩ := alphabet
        refine ⟨[⟨c0, c1, c2, ascii '='⟩], single ⟨mem0, mem1, .inr (.inl ⟨mem2, rfl⟩)⟩, by simp, ?_⟩
        have pad2 := ne_of_mem_of_not_mem mem2 equals_notMem
        simp [padding, Base64Group.pad, Base64Group.pad2, Base64Group.pad3, pad2]
      · simp only [List.length_cons] at whole size
        have split : c0 :: c1 :: c2 :: c3 :: rest = Base64Group.text ⟨c0, c1, c2, c3⟩ ++ rest := rfl
        rw [split, List.forall_mem_append] at alphabet
        obtain ⟨wellFormed, unpadded⟩ := wellFormed_of_alphabet alphabet.1
        obtain ⟨groups, spells, inside, total⟩ := inductionHypothesis rest.length (by omega) rest
          alphabet.2 (by omega) rfl
        refine ⟨⟨c0, c1, c2, c3⟩ :: groups, ?_, ?_, ?_⟩
        · rw [split, List.append_assoc]
          exact spells.cons wellFormed
        · exact inside_cons unpadded inside
        · rw [padding_cons, unpadded, Nat.zero_add, total]

/-- The decoder accepts the Base64 texts, with the length of their padding, and
no others, exactly when the text has no padding inside. -/
theorem tenBase64Decode_exact_iff {grants : Schedule} (ample : Ample grants) {world : World}
    (text : CString) :
    Returns (tenBase64Decode (some text)) grants world (fun reply _ =>
        (reply.isSome = true ↔ ∃ pad, IsBase64 text.bytes pad) ∧
          ∀ bytes size pad, reply = some (bytes, size) → IsBase64 text.bytes pad →
            bytes.length = size ∧ size + pad = 3 * (text.length / 4)) ↔
      ¬ PaddedInside text.bytes := by
  by_cases spelled : ∃ groups, Spells Base64Group.WellFormed Base64Group.text groups text.bytes
  · obtain ⟨groups, spells⟩ := spelled
    obtain ⟨reply, after, run, outcome⟩ :
        Returns (tenBase64Decode (some text)) grants world (fun reply _ =>
          (reply = none ∧ ¬ Ample grants) ∨
            reply = some (groups.flatMap Base64Group.bytes,
              (groups.flatMap Base64Group.bytes).length)) := tenBase64Decode_of_spells spells
    obtain rfl := outcome.resolve_left fun shortage => shortage.2 ample
    rw [returns_iff_of_run run]
    have unique : ∀ {pad : Nat}, IsBase64 text.bytes pad →
        (∀ group ∈ groups.dropLast, group.pad = 0) ∧ padding groups = pad := by
      intro pad base64
      obtain ⟨others, spellsOthers, inside, total⟩ := groups_of_isBase64 base64
      rw [tenBase64DecodeOne_reads.spells_unique spells spellsOthers]
      exact ⟨inside, total⟩
    constructor
    · rintro ⟨accepted, -⟩ ⟨others, spellsOthers, group, member, padded⟩
      obtain rfl := tenBase64DecodeOne_reads.spells_unique spells spellsOthers
      obtain ⟨pad, base64⟩ := accepted.mp rfl
      exact padded ((unique base64).1 group member)
    · intro plain
      have inside : ∀ group ∈ groups.dropLast, group.pad = 0 := by
        intro group member
        by_contra padded
        exact plain ⟨groups, spells, group, member, padded⟩
      have base64 := isBase64_of_groups spells.valid inside
      rw [spells.text] at base64
      refine ⟨iff_of_true rfl ⟨_, base64⟩, ?_⟩
      rintro _ _ pad ⟨⟩ base64
      have total := length_flatMap_bytes spells.valid
      have characters := length_flatMap_text groups
      rw [spells.text] at characters
      rw [(unique base64).2] at total
      refine ⟨rfl, ?_⟩
      rw [CString.length]
      omega
  · have unspelled := not_exists.mp spelled
    apply iff_of_true
    · apply (tenBase64Decode_of_not_spells unspelled).mono
      rintro reply after rfl
      refine ⟨iff_of_false Bool.false_ne_true ?_, ?_⟩
      · rintro ⟨pad, base64⟩
        obtain ⟨groups, spells, -⟩ := groups_of_isBase64 base64
        exact unspelled groups spells
      · intro bytes size pad impossible
        cases impossible
    · rintro ⟨groups, spells, -⟩
      exact unspelled groups spells

end Language

/-- The text `QQ==QQ==`. -/
def paddedTwice : CString := ⟨asciiBytes ['Q', 'Q', '=', '=', 'Q', 'Q', '=', '='], by decide⟩

/-- The text `QUI=`. -/
theorem tenBase64Decode_exact_one :
    Returns (tenBase64Decode (some ⟨asciiBytes ['Q', 'U', 'I', '='], by decide⟩)) (fun _ => true)
      default (fun reply _ =>
        (reply.isSome = true ↔ ∃ pad, IsBase64 (asciiBytes ['Q', 'U', 'I', '=']) pad) ∧
          ∀ bytes size pad, reply = some (bytes, size) →
            IsBase64 (asciiBytes ['Q', 'U', 'I', '=']) pad →
              bytes.length = size ∧ size + pad = 3 * (4 / 4)) := by
  apply (tenBase64Decode_exact_iff ample_always _).mpr
  rintro ⟨groups, spells, group, member, -⟩
  have length := length_flatMap_text groups
  rw [spells.text] at length
  have positive := List.length_pos_of_mem member
  rw [List.length_dropLast] at positive
  change 4 = 4 * groups.length at length
  omega

theorem tenBase64Decode_not_exact_twice :
    ¬ Returns (tenBase64Decode (some paddedTwice)) (fun _ => true) default (fun reply _ =>
        (reply.isSome = true ↔ ∃ pad, IsBase64 paddedTwice.bytes pad) ∧
          ∀ bytes size pad, reply = some (bytes, size) → IsBase64 paddedTwice.bytes pad →
            bytes.length = size ∧ size + pad = 3 * (paddedTwice.length / 4)) := by
  have run : tenBase64Decode (some paddedTwice) (fun _ => true) default =
      some (some ([0x41, 0x41], 2), { requests := 1, lastError := .ok }) := by decide
  rw [returns_iff_of_run run]
  rintro ⟨accepted, -⟩
  obtain ⟨pad, -, few, body, split, alphabet⟩ := accepted.mp rfl
  have marks : paddedTwice.bytes.count (ascii '=') = 4 := by decide
  have none : body.count (ascii '=') = 0 :=
    List.count_eq_zero.mpr fun member => equals_notMem (alphabet _ member)
  rw [split, List.count_append, none, List.count_replicate_self] at marks
  omega

/-! ### The round trip -/

section Encoder

/-- Three bytes in one number. -/
theorem triple_eq {a b c : Nat} (smallB : b < 256) (smallC : c < 256) :
    a <<< 16 ||| b <<< 8 ||| c = a * 65536 + b * 256 + c := by
  have low := or_low_bits b 8 smallC
  rw [Nat.or_assoc, low, or_low_bits a 16 (by omega)]
  omega

/-- Three bytes come back from the four sextets of their number. -/
theorem regroup {a b c triple : Nat} (smallA : a < 256) (smallB : b < 256) (smallC : c < 256)
    (same : triple = a * 65536 + b * 256 + c) :
    (triple >>> 18 &&& 0x3F) <<< 2 ||| (triple >>> 12 &&& 0x3F) >>> 4 = a ∧
      ((triple >>> 12 &&& 0x3F) &&& 0xF) <<< 4 ||| (triple >>> 6 &&& 0x3F) >>> 2 = b ∧
      ((triple >>> 6 &&& 0x3F) &&& 0x3) <<< 6 ||| (triple &&& 0x3F) = c := by
  simp only [and_six_bits, and_four_bits, and_two_bits, Nat.shiftRight_eq_div_pow, Nat.reducePow]
  rw [or_low_bits _ 2 (by omega), or_low_bits _ 4 (by omega), or_low_bits _ 6 (by omega)]
  omega

/-- The character of a sextet. -/
def sextetChar (x : Nat) : Byte := tenBase64Char (x &&& 0x3F)

theorem sextetChar_mem (x : Nat) : sextetChar x ∈ tenBase64Alphabet :=
  tenBase64Char_mem (Nat.and_lt_two_pow (n := 6) x (by decide))

theorem tenBase64Value_sextetChar (x : Nat) :
    (tenBase64Value (sextetChar x)).toNat = x &&& 0x3F := by
  rw [sextetChar, tenBase64Value_char (Nat.and_lt_two_pow (n := 6) x (by decide)), Int.toNat_natCast]

theorem sextetChar_ne (x : Nat) : decide (sextetChar x = ascii '=') = false :=
  decide_eq_false (ne_of_mem_of_not_mem (sextetChar_mem x) equals_notMem)

/-- A pass of the encoder that has three bytes. -/
theorem encodeOne_three (a b c : Byte) (rest : Bytes) :
    ∃ group : Base64Group, group.WellFormed ∧ group.pad = 0 ∧ group.bytes = [a, b, c] ∧
      group.text = tenBase64EncodeOne (a :: b :: c :: rest) := by
  have triple := triple_eq (a := a.toNat) b.toNat_lt c.toNat_lt
  obtain ⟨first, second, third⟩ := regroup a.toNat_lt b.toNat_lt c.toNat_lt triple
  generalize joined : a.toNat <<< 16 ||| b.toNat <<< 8 ||| c.toNat = n at first second third
  refine ⟨⟨sextetChar (n >>> 18), sextetChar (n >>> 12), sextetChar (n >>> 6), sextetChar n⟩,
    ⟨sextetChar_mem _, sextetChar_mem _, .inl ⟨sextetChar_mem _, sextetChar_mem _⟩⟩, ?_, ?_, ?_⟩
  · simp only [Base64Group.pad, Base64Group.pad2, Base64Group.pad3, sextetChar_ne]
    rfl
  · simp only [Base64Group.bytes, Base64Group.a, Base64Group.b, Base64Group.c, Base64Group.d,
      Base64Group.pad2, Base64Group.pad3, sextetChar_ne, Bool.false_eq_true, if_false,
      tenBase64Value_sextetChar, first, second, third, UInt8.ofNat_toNat, List.cons_append,
      List.nil_append]
  · have two : 1 < (a :: b :: c :: rest).length := by simp
    have three : 2 < (a :: b :: c :: rest).length := by simp
    simp only [tenBase64EncodeOne, if_pos two, if_pos three]
    rw [← joined]
    rfl

/-- The pass that has two bytes left. -/
theorem encodeOne_two (a b : Byte) :
    ∃ group : Base64Group, group.WellFormed ∧ group.pad = 1 ∧ group.bytes = [a, b] ∧
      group.text = tenBase64EncodeOne [a, b] := by
  have triple := triple_eq (a := a.toNat) (c := 0) b.toNat_lt (by decide)
  obtain ⟨first, second, -⟩ := regroup a.toNat_lt b.toNat_lt (by decide) triple
  generalize joined : a.toNat <<< 16 ||| b.toNat <<< 8 ||| 0 = n at first second
  refine ⟨⟨sextetChar (n >>> 18), sextetChar (n >>> 12), sextetChar (n >>> 6), ascii '='⟩,
    ⟨sextetChar_mem _, sextetChar_mem _, .inr (.inl ⟨sextetChar_mem _, rfl⟩)⟩, ?_, ?_, ?_⟩
  · simp only [Base64Group.pad, Base64Group.pad2, Base64Group.pad3, sextetChar_ne]
    rfl
  · simp only [Base64Group.bytes, Base64Group.a, Base64Group.b, Base64Group.c, Base64Group.pad2,
      Base64Group.pad3, sextetChar_ne, Bool.false_eq_true, if_false, decide_true, if_true,
      tenBase64Value_sextetChar, first, second, UInt8.ofNat_toNat, List.cons_append,
      List.nil_append]
  · rw [← joined]
    rfl

/-- The pass that has one byte left. -/
theorem encodeOne_one (a : Byte) :
    ∃ group : Base64Group, group.WellFormed ∧ group.pad = 2 ∧ group.bytes = [a] ∧
      group.text = tenBase64EncodeOne [a] := by
  have triple := triple_eq (a := a.toNat) (b := 0) (c := 0) (by decide) (by decide)
  obtain ⟨first, -, -⟩ := regroup a.toNat_lt (by decide) (by decide) triple
  generalize joined : a.toNat <<< 16 ||| 0 <<< 8 ||| 0 = n at first
  refine ⟨⟨sextetChar (n >>> 18), sextetChar (n >>> 12), ascii '=', ascii '='⟩,
    ⟨sextetChar_mem _, sextetChar_mem _, .inr (.inr ⟨rfl, rfl⟩)⟩, ?_, ?_, ?_⟩
  · simp only [Base64Group.pad, Base64Group.pad2]
    rfl
  · simp only [Base64Group.bytes, Base64Group.a, Base64Group.b, Base64Group.pad2,
      Base64Group.pad3, decide_true, if_true, tenBase64Value_sextetChar, first,
      UInt8.ofNat_toNat, List.append_nil]
  · rw [← joined]
    rfl

/-- The loop writes well-formed groups of which only the last is filled up. -/
theorem tenBase64EncodeLoop_groups (data : Bytes) :
    ∃ groups, Spells Base64Group.WellFormed Base64Group.text groups (tenBase64EncodeLoop data) ∧
      groups.flatMap Base64Group.bytes = data ∧ groups.length = (data.length + 2) / 3 ∧
      (∀ group ∈ groups.dropLast, group.pad = 0) ∧ padding groups = (3 - data.length % 3) % 3 := by
  induction data using tenBase64EncodeLoop.induct with
  | case1 => exact ⟨[], spells_nil, rfl, rfl, by simp, rfl⟩
  | case2 a =>
      obtain ⟨group, wellFormed, pad, bytes, text⟩ := encodeOne_one a
      refine ⟨[group], ⟨by simpa using wellFormed, ?_⟩, ?_, by simp, by simp, ?_⟩
      · rw [List.flatMap_singleton, text, tenBase64EncodeLoop]
      · rw [List.flatMap_singleton, bytes]
      · simp [padding, pad]
  | case3 a b =>
      obtain ⟨group, wellFormed, pad, bytes, text⟩ := encodeOne_two a b
      refine ⟨[group], ⟨by simpa using wellFormed, ?_⟩, ?_, by simp, by simp, ?_⟩
      · rw [List.flatMap_singleton, text, tenBase64EncodeLoop]
      · rw [List.flatMap_singleton, bytes]
      · simp [padding, pad]
  | case4 a b c rest inductionHypothesis =>
      obtain ⟨group, wellFormed, pad, bytes, text⟩ := encodeOne_three a b c rest
      obtain ⟨groups, spells, datas, count, inside, total⟩ := inductionHypothesis
      refine ⟨group :: groups, ?_, ?_, ?_, ?_, ?_⟩
      · rw [tenBase64EncodeLoop, ← text]
        exact spells.cons wellFormed
      · rw [List.flatMap_cons, bytes, datas]
        rfl
      · simp only [List.length_cons, count]
        omega
      · exact inside_cons pad inside
      · simp only [padding_cons, pad, total, List.length_cons]
        omega

/-- Encoding, and decoding what was encoded. -/
def base64RoundTrip (data : Bytes) : Ten (Option CString × Option (Bytes × Nat)) := do
  let text ← tenBase64Encode (some data) data.length
  let back ← tenBase64Decode text
  return (text, back)

/-- The encoded text is a Base64 text of the right length, and is decoded to the
bytes. -/
theorem base64RoundTrip_spec {grants : Schedule} (ample : Ample grants) (world : World)
    (data : Bytes) :
    Returns (base64RoundTrip data) grants world (fun (text, back) _ =>
      back = some (data, data.length) ∧
        ∃ encoded, text = some encoded ∧ encoded.length = 4 * ((data.length + 2) / 3) ∧
          IsBase64 encoded.bytes ((3 - data.length % 3) % 3)) := by
  obtain ⟨groups, spells, bytes, count, inside, total⟩ := tenBase64EncodeLoop_groups data
  have base64 := isBase64_of_groups spells.valid inside
  rw [spells.text, total] at base64
  have characters := length_flatMap_text groups
  rw [spells.text, count] at characters
  have noNul : (0 : Byte) ∉ tenBase64EncodeLoop data := by
    obtain ⟨-, -, body, split, alphabet⟩ := base64
    rw [split, List.mem_append, not_or]
    refine ⟨fun member => zero_notMem (alphabet 0 member), ?_⟩
    intro member
    exact absurd (List.eq_of_mem_replicate member) (by decide)
  have encoded : (CString.ofMemory (tenBase64EncodeLoop data ++ [0])).bytes =
      tenBase64EncodeLoop data := CString.takeWhile_append_nul noNul []
  have fits : ¬ (tenBase64EncodeLoop data).length > (data.length + 2) / 3 * 4 := by omega
  have back : Spells Base64Group.WellFormed Base64Group.text groups
      (CString.ofMemory (tenBase64EncodeLoop data ++ [0])).bytes := by
    rw [encoded]
    exact spells
  simp only [base64RoundTrip, tenBase64Encode, reduceCtorEq, false_and, if_false,
    Option.getD_some, List.take_length, if_neg fits, returns_bind, returns_tenMalloc,
    returns_tenSetError, returns_pure]
  constructor
  · intro granted
    apply (tenBase64Decode_of_spells back).mono
    rintro reply after (⟨-, shortage⟩ | rfl)
    · exact absurd ample shortage
    rw [bytes]
    refine ⟨rfl, _, rfl, ?_, ?_⟩
    · rw [CString.length, encoded]
      exact characters
    · rw [encoded]
      exact base64
  · intro refused
    exact absurd ample (not_ample_of_refused refused)

end Encoder

/-- The bytes of `Ma`. -/
theorem base64RoundTrip_two :
    Returns (base64RoundTrip (asciiBytes ['M', 'a'])) (fun _ => true) default
      (fun (text, back) _ =>
        back = some (asciiBytes ['M', 'a'], 2) ∧
          ∃ encoded, text = some encoded ∧ encoded.length = 4 ∧ IsBase64 encoded.bytes 1) :=
  base64RoundTrip_spec ample_always default (asciiBytes ['M', 'a'])

end Dotten
