/-
Module: Dotten.Json.JsonNormal
Layer: Json
Purpose: Printing what has been parsed, and parsing and printing it again: the
  second text is the first one exactly when no infinity and no NaN is printed
  that the parser cannot read.
Imports: Dotten.Json.JsonDocument, Dotten.Json.JsonParserSound
Main exports: Ieee, IeeeDoubles, Readable, number_iff_readable, render_reread,
  keeps_tenJsonStringify, tenJsonReprint_spec, Normalises, tenJson_normalises_iff
-/
import Dotten.Json.JsonDocument
import Dotten.Json.JsonParserSound

namespace Dotten

open Dotten.Library

/-- A double over a type of finite values.  A NaN has a sign, too. -/
inductive Ieee (F : Type) where
  | finite (value : F)
  | infinity
  | minusInfinity
  | nan
  | minusNan
deriving DecidableEq, Repr

section Numbers

variable {F : Type} [CDouble (Ieee F)]

/-- A double whose print starts with a minus sign or a digit.  It is left to the C
library whether it shows the sign of a NaN. -/
def Readable (v : Ieee F) : Prop :=
  v ≠ .infinity ∧ (CDouble.formatG17 v).bytes ≠ asciiBytes ['n', 'a', 'n']

/-- What is assumed of doubles: small integers are exact, comparisons are those
of IEEE 754, and `"%.17g"` prints a finite value as a number that `strtod` reads
back, and the others as words. -/
structure IeeeDoubles (F : Type) [CDouble (Ieee F)] : Prop extends ExactIntegers (Ieee F) where
  eq_ofLongLong {n : Int} (small : n.natAbs < 2 ^ 53) :
    CDouble.eq (CDouble.ofLongLong n : Ieee F) (CDouble.ofLongLong n) = true
  natAbs_lt {v : Ieee F} {n : Int} (equal : CDouble.eq v (CDouble.ofLongLong n) = true)
    (above : CDouble.lt (CDouble.ofLongLong (-10 ^ 15)) v = true)
    (below : CDouble.lt v (CDouble.ofLongLong (10 ^ 15)) = true) : n.natAbs < 10 ^ 15
  infinity_lt (n : Int) : CDouble.lt (Ieee.infinity : Ieee F) (CDouble.ofLongLong n) = false
  lt_minusInfinity (n : Int) :
    CDouble.lt (CDouble.ofLongLong n) (Ieee.minusInfinity : Ieee F) = false
  lt_nan (n : Int) : CDouble.lt (CDouble.ofLongLong n) (Ieee.nan : Ieee F) = false
  lt_minusNan (n : Int) : CDouble.lt (CDouble.ofLongLong n) (Ieee.minusNan : Ieee F) = false
  number_formatG17 (v : F) : IsJsonNumber (CDouble.formatG17 (Ieee.finite v)).bytes
  length_formatG17 (v : F) : (CDouble.formatG17 (Ieee.finite v)).bytes.length ≤ 31
  strtod_formatG17 (v : F) :
    CDouble.strtod (CDouble.formatG17 (Ieee.finite v)).bytes = Ieee.finite v
  formatG17_infinity :
    (CDouble.formatG17 (Ieee.infinity : Ieee F)).bytes = asciiBytes ['i', 'n', 'f']
  formatG17_minusInfinity :
    (CDouble.formatG17 (Ieee.minusInfinity : Ieee F)).bytes = asciiBytes ['-', 'i', 'n', 'f']
  formatG17_nan : (CDouble.formatG17 (Ieee.nan : Ieee F)).bytes = asciiBytes ['n', 'a', 'n']
  formatG17_minusNan :
    (CDouble.formatG17 (Ieee.minusNan : Ieee F)).bytes = asciiBytes ['n', 'a', 'n'] ∨
      (CDouble.formatG17 (Ieee.minusNan : Ieee F)).bytes = asciiBytes ['-', 'n', 'a', 'n']
  strtod_minusInfinity :
    CDouble.strtod (asciiBytes ['-', 'i', 'n', 'f']) = (Ieee.minusInfinity : Ieee F)
  strtod_minusNan : CDouble.strtod (asciiBytes ['-', 'n', 'a', 'n']) = (Ieee.minusNan : Ieee F)

/-- A double is printed in one of two formats. -/
theorem tenJsonStringifyNumber_cases (doubles : IeeeDoubles F) (v : Ieee F) :
    (∃ n : Int, n.natAbs < 10 ^ 15 ∧ CDouble.eq v (CDouble.ofLongLong n) = true ∧
      CDouble.lt (CDouble.ofLongLong (-10 ^ 15)) v = true ∧
      CDouble.lt v (CDouble.ofLongLong (10 ^ 15)) = true ∧
      tenJsonStringifyNumber v = formatSigned n) ∨
    tenJsonStringifyNumber v = snprintf 32 (CDouble.formatG17 v).bytes := by
  by_cases integral : (CDouble.eq v (CDouble.ofLongLong (CDouble.toLongLong v)) &&
      CDouble.lt (CDouble.ofLongLong (-10 ^ 15)) v &&
      CDouble.lt v (CDouble.ofLongLong (10 ^ 15))) = true
  · simp only [Bool.and_eq_true] at integral
    obtain ⟨⟨equal, above⟩, below⟩ := integral
    have small := doubles.natAbs_lt equal above below
    exact .inl ⟨_, small, equal, above, below,
      tenJsonStringifyNumber_eq doubles.toExactIntegers small equal⟩
  · right
    rw [tenJsonStringifyNumber, if_neg integral]

theorem tenJsonStringifyNumber_infinity (doubles : IeeeDoubles F) :
    tenJsonStringifyNumber (Ieee.infinity : Ieee F) = asciiBytes ['i', 'n', 'f'] := by
  obtain ⟨n, -, -, -, below, -⟩ | printed := tenJsonStringifyNumber_cases doubles .infinity
  · rw [doubles.infinity_lt] at below
    cases below
  · rw [printed, doubles.formatG17_infinity]
    rfl

theorem tenJsonStringifyNumber_minusInfinity (doubles : IeeeDoubles F) :
    tenJsonStringifyNumber (Ieee.minusInfinity : Ieee F) = asciiBytes ['-', 'i', 'n', 'f'] := by
  obtain ⟨n, -, -, above, -⟩ | printed := tenJsonStringifyNumber_cases doubles .minusInfinity
  · rw [doubles.lt_minusInfinity] at above
    cases above
  · rw [printed, doubles.formatG17_minusInfinity]
    rfl

theorem tenJsonStringifyNumber_nan (doubles : IeeeDoubles F) :
    tenJsonStringifyNumber (Ieee.nan : Ieee F) = asciiBytes ['n', 'a', 'n'] := by
  obtain ⟨n, -, -, above, -⟩ | printed := tenJsonStringifyNumber_cases doubles .nan
  · rw [doubles.lt_nan] at above
    cases above
  · rw [printed, doubles.formatG17_nan]
    rfl

/-- A NaN with the sign set is printed with the sign, or without. -/
theorem tenJsonStringifyNumber_minusNan (doubles : IeeeDoubles F) :
    tenJsonStringifyNumber (Ieee.minusNan : Ieee F) =
      (CDouble.formatG17 (Ieee.minusNan : Ieee F)).bytes := by
  obtain ⟨n, -, -, above, -⟩ | printed := tenJsonStringifyNumber_cases doubles .minusNan
  · rw [doubles.lt_minusNan] at above
    cases above
  · have short : (CDouble.formatG17 (Ieee.minusNan : Ieee F)).bytes.length ≤ 31 := by
      rcases doubles.formatG17_minusNan with unsigned | signed
      · rw [unsigned]
        decide
      · rw [signed]
        decide
    rw [printed, snprintf_of_length_lt short]

/-- A JSON number is not the word for NaN. -/
theorem readable_finite (doubles : IeeeDoubles F) (v : F) : Readable (Ieee.finite v) := by
  refine ⟨by simp, fun word => ?_⟩
  have number := doubles.number_formatG17 v
  rw [word] at number
  obtain ⟨-, b, rest, same, starts⟩ := wellFormed_within_accepted.number _ number
  cases same
  exact absurd starts (by decide)

theorem readable_minusInfinity (doubles : IeeeDoubles F) :
    Readable (Ieee.minusInfinity : Ieee F) := by
  refine ⟨by simp, ?_⟩
  rw [doubles.formatG17_minusInfinity]
  decide

/-- The word for NaN starts with a letter. -/
theorem not_number_nan : ¬ Dialect.accepted.number (asciiBytes ['n', 'a', 'n']) := by
  rintro ⟨-, b, rest, same, starts⟩
  cases same
  exact absurd starts (by decide)

/-- A finite value is printed as a JSON number. -/
theorem isJsonNumber_finite (doubles : IeeeDoubles F) (v : F) :
    IsJsonNumber (tenJsonStringifyNumber (Ieee.finite v)) := by
  obtain ⟨n, -, -, -, -, printed⟩ | printed := tenJsonStringifyNumber_cases doubles (.finite v)
  · rw [printed]
    exact isJsonNumber_formatSigned n
  · rw [printed, snprintf_of_length_lt (doubles.length_formatG17 v)]
    exact doubles.number_formatG17 v

/-- The printed doubles that the parser takes for numbers. -/
theorem number_iff_readable (doubles : IeeeDoubles F) (v : Ieee F) :
    Dialect.accepted.number (tenJsonStringifyNumber v) ↔ Readable v := by
  cases v with
  | finite v =>
      have number := wellFormed_within_accepted.number _ (isJsonNumber_finite doubles v)
      exact iff_of_true number (readable_finite doubles v)
  | infinity =>
      rw [tenJsonStringifyNumber_infinity doubles]
      refine iff_of_false ?_ (fun readable => readable.1 rfl)
      rintro ⟨-, b, rest, same, starts⟩
      cases same
      exact absurd starts (by decide)
  | minusInfinity =>
      rw [tenJsonStringifyNumber_minusInfinity doubles]
      exact iff_of_true ⟨by decide, _, _, rfl, .inl rfl⟩ (readable_minusInfinity doubles)
  | nan =>
      rw [tenJsonStringifyNumber_nan doubles]
      exact iff_of_false not_number_nan (fun readable => readable.2 doubles.formatG17_nan)
  | minusNan =>
      rw [tenJsonStringifyNumber_minusNan doubles]
      rcases doubles.formatG17_minusNan with unsigned | signed
      · rw [unsigned]
        exact iff_of_false not_number_nan (fun readable => readable.2 unsigned)
      · rw [Readable, signed]
        exact iff_of_true ⟨by decide, _, _, rfl, .inl rfl⟩ ⟨by simp, by decide⟩

/-- What a printed double reads as is printed in the same way. -/
theorem tenJsonStringifyNumber_reread (doubles : IeeeDoubles F) {v : Ieee F}
    (readable : Readable v) :
    tenJsonStringifyNumber (CDouble.strtod (tenJsonStringifyNumber v) : Ieee F) =
      tenJsonStringifyNumber v := by
  obtain ⟨n, small, -, -, -, printed⟩ | printed := tenJsonStringifyNumber_cases doubles v
  · have within : n.natAbs < 2 ^ 53 := Nat.lt_trans small (by decide)
    rw [printed, doubles.strtod_formatSigned within]
    exact tenJsonStringifyNumber_eq doubles.toExactIntegers small (doubles.eq_ofLongLong within)
  · have same : (CDouble.strtod (tenJsonStringifyNumber v) : Ieee F) = v := by
      cases v with
      | finite v =>
          rw [printed, snprintf_of_length_lt (doubles.length_formatG17 v)]
          exact doubles.strtod_formatG17 v
      | infinity => exact absurd rfl readable.1
      | minusInfinity =>
          rw [tenJsonStringifyNumber_minusInfinity doubles]
          exact doubles.strtod_minusInfinity
      | nan => exact absurd doubles.formatG17_nan readable.2
      | minusNan =>
          have signed := doubles.formatG17_minusNan.resolve_left readable.2
          rw [tenJsonStringifyNumber_minusNan doubles, signed]
          exact doubles.strtod_minusNan
    rw [same]

end Numbers

section Documents

variable {D : Type} [CDouble D]

/-- The numbers of a printed document are the printed numbers. -/
theorem numbers_document {p : Bytes → Prop} {tree : JsonTree D} (proper : tree.Proper) :
    tree.document.Numbers p ↔ tree.Numbers fun v => p (tenJsonStringifyNumber v) := by
  induction proper with
  | null => exact iff_of_true .null .null
  | boolean value => exact iff_of_true (.boolean value) (.boolean value)
  | number value =>
      constructor
      · rintro (holds : JsonTree.Numbers p (.number (tenJsonStringifyNumber value)))
        cases holds with
        | number holds => exact .number holds
      · intro holds
        cases holds with
        | number holds => exact .number holds
  | string noNul => exact iff_of_true (.string _) (.string _)
  | array _ each =>
      rw [JsonTree.document, documents_eq_map]
      constructor
      · intro numbers
        cases numbers with
        | array numbers =>
            apply JsonTree.Numbers.array
            intro tree listed
            exact (each tree listed).mp (numbers _ (List.mem_map_of_mem listed))
      · intro numbers
        cases numbers with
        | array numbers =>
            apply JsonTree.Numbers.array
            intro document member
            obtain ⟨tree, listed, rfl⟩ := List.mem_map.mp member
            exact (each tree listed).mpr (numbers tree listed)
  | object _ _ _ each =>
      rw [JsonTree.document, memberDocuments_eq_map]
      constructor
      · intro numbers
        cases numbers with
        | object numbers =>
            apply JsonTree.Numbers.object
            intro member listed
            exact (each member listed).mp (numbers _ (List.mem_map_of_mem listed))
      · intro numbers
        cases numbers with
        | object numbers =>
            apply JsonTree.Numbers.object
            intro document member
            obtain ⟨pair, listed, rfl⟩ := List.mem_map.mp member
            exact (each pair listed).mpr (numbers pair listed)

/-- No key stands twice in a printed document, and nothing is replaced when it is
read. -/
theorem replacesCleanly_document {tree : JsonTree D} (proper : tree.Proper) :
    tree.document.ReplacesCleanly D := by
  induction proper with
  | null => exact .null
  | boolean value => exact .boolean value
  | number value => exact .number _
  | string noNul => exact .string _
  | array _ each =>
      rw [JsonTree.document, documents_eq_map]
      apply JsonTree.ReplacesCleanly.array
      intro document member
      obtain ⟨tree, listed, rfl⟩ := List.mem_map.mp member
      exact each tree listed
  | object distinct _ _ each =>
      rw [JsonTree.document, memberDocuments_eq_map]
      apply JsonTree.ReplacesCleanly.object
      · intro document member
        obtain ⟨pair, listed, rfl⟩ := List.mem_map.mp member
        exact each pair listed
      · rw [List.pairwise_map]
        exact (List.pairwise_map.mp distinct).imp fun differ same => absurd same differ

end Documents

/-! ### The printer destroys nothing -/

section Printing

/-- What appends to the output without reading a freed string. -/
abbrev KeepsStrings (emit : Emitter) : Prop := ∀ out, Keeps World.strayReads (emit out)

theorem keeps_tenStringPut (text : Bytes) : KeepsStrings (tenStringPut · text) :=
  fun out => (keeps_tenStringAppend out _).bind fun _ => .pure _

theorem keeps_tenJsonStringifyChars (s : Bytes) : KeepsStrings (tenJsonStringifyChars s) := by
  induction s with
  | nil => exact fun out => .pure out
  | cons c s inductionHypothesis =>
      exact fun out => (keeps_tenStringPut _ out).bind inductionHypothesis

theorem keeps_tenJsonStringifyEscapeString (s : CString) :
    KeepsStrings (tenJsonStringifyEscapeString s) :=
  fun out => (keeps_tenStringPut _ out).bind fun out =>
    (keeps_tenJsonStringifyChars _ out).bind (keeps_tenStringPut _)

/-- What is fetched from an array or an object is such a printer. -/
structure FetchesPrinter (fetch : Ten Emitter) : Prop where
  keeps : Keeps World.strayReads fetch
  printer : ∀ grants world emit after,
    fetch grants world = some (emit, after) → KeepsStrings emit

theorem keeps_tenJsonStringifyItems {fetch : Nat → Ten Emitter}
    (fetches : ∀ i, FetchesPrinter (fetch i)) (left : Nat) :
    ∀ i, KeepsStrings (tenJsonStringifyItems fetch i left) := by
  induction left with
  | zero => exact fun _ out => .pure out
  | succ left inductionHypothesis =>
      intro i out
      apply (fetches i).keeps.bind_of
      intro grants world emit after run
      have comma : Keeps World.strayReads (tenJsonStringifyComma i out) :=
        .ite (keeps_tenStringPut _ out) (.pure out)
      exact comma.bind fun out =>
        ((fetches i).printer _ _ _ _ run out).bind (inductionHypothesis (i + 1))

theorem keeps_tenListGet {α : Type} (list : TenList α) (i : Nat) :
    Keeps World.strayReads (tenListGet list i) := by
  unfold tenListGet
  cases list.items[i]? with
  | none => exact (keeps_tenSetError _).bind fun _ => .pure _
  | some item => exact (keeps_tenSetError _).bind fun _ => .pure _

theorem fetchesPrinter_element {array : TenList Emitter}
    (each : ∀ emit ∈ array.items, KeepsStrings emit) (i : Nat) :
    FetchesPrinter (tenJsonFetchElement array i) where
  keeps := by
    apply (keeps_tenListGet array i).bind
    rintro (_ | element)
    · exact keeps_stuck
    · exact .pure _
  printer := by
    intro grants world emit after run
    unfold tenJsonFetchElement tenListGet at run
    cases here : array.items[i]? with
    | none =>
        rw [here] at run
        cases run
    | some element =>
        rw [here] at run
        cases run
        exact each _ (List.mem_of_getElem? here)

/-- What a lookup finds is in the map. -/
theorem mem_of_tenMapGet {K V : Type} [KeyCell K] {map : TenMap K V} {key : Option K} {value : V}
    {grants : Schedule} {world after : World}
    (run : tenMapGet map key grants world = some (some value, after)) :
    ∃ entry ∈ map.buckets.flatten, entry.value = value := by
  unfold tenMapGet at run
  cases key with
  | none => cases run
  | some key =>
      dsimp only at run
      cases found : tenMapFind map key with
      | none =>
          rw [found] at run
          cases run
      | some entry =>
          rw [found] at run
          cases run
          exact ⟨entry, mem_of_tenMapFind found, rfl⟩

theorem fetchesPrinter_member {object : JsonObject Emitter}
    (each : ∀ entry ∈ object.entries.buckets.flatten, KeepsStrings entry.value) (i : Nat) :
    FetchesPrinter (tenJsonFetchMember object i) where
  keeps := by
    apply (keeps_tenListGet object.keyOrder i).bind
    rintro (_ | key)
    · exact keeps_stuck
    refine (keeps_tenSetError .ok).bind fun _ => (keeps_tenMapGet _ _).bind ?_
    rintro (_ | value)
    · exact keeps_stuck
    · exact .pure _
  printer := by
    intro grants world emit after run
    obtain ⟨key, _, -, run⟩ := run_bind_iff.mp run
    cases key with
    | none => cases run
    | some key =>
        obtain ⟨_, _, -, run⟩ := run_bind_iff.mp run
        obtain ⟨value, _, looked, run⟩ := run_bind_iff.mp run
        cases value with
        | none => cases run
        | some value =>
            obtain ⟨entry, member, rfl⟩ := mem_of_tenMapGet looked
            cases run
            exact fun out => (keeps_tenJsonStringifyEscapeString _ out).bind fun out =>
              (keeps_tenStringPut _ out).bind (each entry member)

theorem keeps_tenJsonStringifyArray {array : TenList Emitter}
    (each : ∀ emit ∈ array.items, KeepsStrings emit) :
    KeepsStrings (tenJsonStringifyArray array) := by
  intro out
  have count : Keeps World.strayReads (tenListCount array) :=
    (keeps_tenSetError .ok).bind fun _ => .pure _
  exact count.bind fun count => (keeps_tenStringPut _ out).bind fun out =>
    (keeps_tenJsonStringifyItems (fetchesPrinter_element each) count 0 out).bind
      (keeps_tenStringPut _)

theorem keeps_tenJsonStringifyObject {object : JsonObject Emitter}
    (each : ∀ entry ∈ object.entries.buckets.flatten, KeepsStrings entry.value) :
    KeepsStrings (tenJsonStringifyObject object) := by
  intro out
  have count : Keeps World.strayReads (tenListCount object.keyOrder) :=
    (keeps_tenSetError .ok).bind fun _ => .pure _
  exact count.bind fun count => (keeps_tenStringPut _ out).bind fun out =>
    (keeps_tenJsonStringifyItems (fetchesPrinter_member each) count 0 out).bind
      (keeps_tenStringPut _)

variable {D : Type} [CDouble D]

theorem keeps_tenJsonStringifyValue (json : JsonNode D) :
    KeepsStrings (tenJsonStringifyValue json) := by
  induction json using JsonNode.nested_induction with
  | null => exact keeps_tenStringPut _
  | boolean value => exact keeps_tenStringPut _
  | number value => exact keeps_tenStringPut _
  | string value =>
      exact fun out => (keeps_tenSetError .ok).bind fun _ =>
        keeps_tenJsonStringifyEscapeString _ out
  | array list inductionHypothesis =>
      rw [tenJsonStringifyValue_array]
      exact keeps_tenJsonStringifyArray (List.forall_mem_map.mpr inductionHypothesis)
  | object object inductionHypothesis =>
      rw [tenJsonStringifyValue_object]
      apply keeps_tenJsonStringifyObject
      rw [flatten_mapValues]
      exact List.forall_mem_map.mpr inductionHypothesis

theorem keeps_tenJsonStringify (json : Option (JsonNode D)) :
    Keeps World.strayReads (tenJsonStringify json) := by
  cases json with
  | none => exact (keeps_tenSetError _).bind fun _ => .pure _
  | some json =>
      apply keeps_tenStringEmpty.bind
      rintro (_ | out)
      · exact .pure _
      apply (keeps_tenJsonStringifyValue json out).bind
      intro out
      have copy : Keeps World.strayReads (tenMemdup out.data (out.length + 1)) := by
        apply keeps_tenMalloc.bind
        rintro (_ | block)
        · exact .pure _
        · exact (keeps_tenSetError .ok).bind fun _ => .pure _
      apply copy.bind
      rintro (_ | result)
      · exact .pure _
      · exact (keeps_tenSetError .ok).bind fun _ => .pure _

end Printing

section Reprinting

variable {F : Type} [CDouble (Ieee F)]

/-- What is printed of a value reads as a value of which the same is printed. -/
theorem render_reread (doubles : IeeeDoubles F) {tree : JsonTree (Ieee F)} (proper : tree.Proper)
    (numbers : tree.Numbers Readable) : tree.reread.render = tree.render := by
  induction proper with
  | null => rfl
  | boolean value => rfl
  | number value =>
      cases numbers with
      | number readable =>
          have again := tenJsonStringifyNumber_reread doubles readable
          exact congrArg (fun piece : Bytes => [piece].flatten) again
  | string noNul => rfl
  | array each same =>
      cases numbers with
      | array numbers =>
          have elements := List.map_congr_left fun tree listed =>
            same tree listed (numbers tree listed)
          rw [reread_array, JsonTree.render_array, JsonTree.render_array, List.map_map, ← elements]
          rfl
  | object distinct noNul each same =>
      rename_i members
      cases numbers with
      | object numbers =>
          have texts : ∀ member ∈ members, memberText member.1 member.2.reread.render =
              memberText member.1 member.2.render := fun member listed =>
            congrArg (memberText member.1) (same member listed (numbers member listed))
          rw [reread_object distinct, JsonTree.render_object, JsonTree.render_object,
            List.map_map, ← List.map_congr_left texts]
          rfl

/-- The parser's dialect with the words that the printer writes for infinity and
NaN. -/
def Dialect.printed : Dialect :=
  { Dialect.accepted with
    number := fun token => Dialect.accepted.number token ∨
      token = asciiBytes ['i', 'n', 'f'] ∨ token = asciiBytes ['n', 'a', 'n'] }

/-- The word `inf` starts like no value. -/
theorem hopeless_infinity : Hopeless (Ieee F) (asciiBytes ['i', 'n', 'f']) := by
  refine ⟨⟨_, _, rfl, by decide⟩, ?_⟩
  intro steps p rest skipped
  rw [tenJsonParseValue, skipped]
  rfl

/-- The word `nan` starts like `null`. -/
theorem hopeless_nan : Hopeless (Ieee F) (asciiBytes ['n', 'a', 'n']) := by
  refine ⟨⟨_, _, rfl, by decide⟩, ?_⟩
  intro steps p rest skipped
  have differs : (asciiBytes ['n', 'a', 'n'] ++ rest).take 4 ≠
      asciiBytes ['n', 'u', 'l', 'l'] := by
    intro same
    have second := congrArg (fun text : Bytes => text[1]?) same
    change some (ascii 'a') = some (ascii 'u') at second
    exact absurd second (by decide)
  rw [tenJsonParseValue, skipped]
  change tenJsonParseLiteral _ _ _ = _
  rw [tenJsonParseLiteral, if_neg]
  rintro ⟨-, same⟩
  exact differs same

theorem readsDialect_printed :
    ReadsDialect (Ieee F) Dialect.printed Dialect.accepted.number where
  strings chars := chars.withNumber
  numbers := by
    rintro token (number | rfl | rfl)
    · exact .inl ⟨number, number⟩
    · refine .inr ⟨hopeless_infinity, ?_⟩
      rintro ⟨-, b, rest, same, starts⟩
      cases same
      exact absurd starts (by decide)
    · exact .inr ⟨hopeless_nan, not_number_nan⟩

/-- Every printed double is a number of the dialect. -/
theorem number_printed (doubles : IeeeDoubles F) (v : Ieee F) :
    Dialect.printed.number (tenJsonStringifyNumber v) := by
  by_cases readable : Readable v
  · exact .inl ((number_iff_readable doubles v).mpr readable)
  · right
    cases v with
    | finite v => exact absurd (readable_finite doubles v) readable
    | infinity => exact .inl (tenJsonStringifyNumber_infinity doubles)
    | minusInfinity => exact absurd (readable_minusInfinity doubles) readable
    | nan => exact .inr (tenJsonStringifyNumber_nan doubles)
    | minusNan =>
        rw [tenJsonStringifyNumber_minusNan doubles]
        refine .inr (doubles.formatG17_minusNan.resolve_right fun signed => readable ?_)
        refine ⟨by simp, ?_⟩
        rw [signed]
        decide

/-- What is printed of a value is a document of the dialect. -/
theorem text_printed (doubles : IeeeDoubles F) {tree : JsonTree (Ieee F)} (proper : tree.Proper) :
    JsonText Dialect.printed tree.document tree.render := by
  apply Derives.text
  apply derives_render _ proper
    ((JsonTree.numbers_true tree).mono fun v _ => number_printed doubles v)
  intro s noNul
  exact ((charsText_escaped noNul).mono wellFormed_within_accepted).withNumber

/-- Printing a value, and parsing and printing it again: the texts and the value
between them. -/
def tenJsonReprint (json : JsonNode (Ieee F)) :
    Ten (Option CString × Option (JsonNode (Ieee F)) × Option CString) := do
  let printed ← tenJsonStringify (some json)
  let parsed ← tenJsonParse printed
  let again ← tenJsonStringify parsed
  return (printed, parsed, again)

/-- The text that is parsed again is the text that is printed again, unless it
holds a double that the parser does not read. -/
theorem tenJsonReprint_spec (doubles : IeeeDoubles F) {grants : Schedule} (ample : Ample grants)
    {json : JsonNode (Ieee F)} (valid : json.Valid) (world : World) :
    Returns (tenJsonReprint json) grants world (fun reply after =>
      (json.tree.Numbers Readable ∧ after.strayReads = world.strayReads ∧
        ∃ printed parsed, reply = (some printed, some parsed, some printed)) ∨
      (¬ json.tree.Numbers Readable ∧ reply.2.1 = none)) := by
  have numbers : json.tree.document.Numbers Dialect.accepted.number ↔
      json.tree.Numbers Readable := by
    rw [numbers_document valid.proper]
    exact ⟨fun all => all.mono fun v => (number_iff_readable doubles v).mp,
      fun all => all.mono fun v => (number_iff_readable doubles v).mpr⟩
  rw [tenJsonReprint, returns_bind]
  apply ((keeps_tenJsonStringify _).returns (tenJsonStringify_render ample valid world)).mono
  rintro reply between ⟨⟨printed, rfl, bytes⟩, unread⟩
  have renders : JsonText Dialect.printed json.tree.document printed.bytes := by
    rw [bytes]
    exact text_printed doubles valid.proper
  rw [returns_bind]
  apply Returns.mono (tenJsonParse_readsAs (serves_returns grants) readsDialect_printed printed
    renders between)
  rintro reply last (⟨rfl, shortage | bad⟩ | ⟨good, parsed, tree', rfl, read, -⟩)
  · exact absurd ample shortage
  · simp only [tenJsonStringify, returns_bind, returns_tenSetError, returns_pure]
    exact .inr ⟨fun readable => bad (numbers.mpr readable), trivial⟩
  have readable := numbers.mp good
  have kept : tree' = json.tree.document := read.cut.eq (fun _ _ kept => kept (.inl ample))
  rw [kept] at read
  have unreadParsing := read.reads.iff.mpr (replacesCleanly_document valid.proper)
  rw [returns_bind]
  apply ((keeps_tenJsonStringify _).returns (tenJsonStringify_render ample read.valid last)).mono
  rintro reply after ⟨⟨again, rfl, bytesAgain⟩, unreadAgain⟩
  have same : again = printed := by
    apply CString.ext
    rw [bytesAgain, bytes, read.denotes]
    exact render_reread doubles valid.proper readable
  rw [returns_pure, same]
  exact .inl ⟨readable, unreadAgain.trans (unreadParsing.trans unread), printed, parsed, rfl⟩

/-- Normalisation of a text: when the parser accepts it, what is printed of the
value is accepted again, and the same is printed of the value read from it, and no
freed string is read on the way. -/
def Normalises (F : Type) [CDouble (Ieee F)] (text : CString) : Prop :=
  ∀ grants, Ample grants → ∀ world json after,
    tenJsonParse (some text) grants world = some (some json, after) →
    Returns (tenJsonReprint (F := F) json) grants after (fun reply last =>
      last.strayReads = world.strayReads ∧
        ∃ printed parsed, reply = (some printed, some parsed, some printed))

/-- A text normalises exactly when none of the numbers that count in it reads as
positive infinity or as a NaN that is printed without a sign, and every value that is
replaced when it is read can be destroyed without reading a freed key. -/
theorem tenJson_normalises_iff (doubles : IeeeDoubles F) (text : CString) :
    Normalises F text ↔ ∀ tree, JsonText Dialect.accepted tree text.bytes →
      (tree.denote (D := Ieee F)).Numbers Readable ∧ tree.ReplacesCleanly (Ieee F) := by
  constructor
  · intro normalises tree renders
    obtain ⟨reply, after, run, json, rfl, valid, sameTree, -, reads⟩ :=
      tenJsonParse_complete (D := Ieee F) ample_always text renders default
    have both := (normalises _ ample_always _ _ _ run).and
      (tenJsonReprint_spec doubles ample_always valid after)
    obtain ⟨-, last, -, ⟨unread, printed, parsed, rfl⟩, ⟨readable, still, -⟩ | ⟨-, refused⟩⟩ := both
    · rw [← sameTree]
      exact ⟨readable, reads.iff.mp (still.symm.trans unread)⟩
    · cases refused
  · intro readable grants ample world json after run
    obtain ⟨tree, renders⟩ := ((tenJsonParse_sound text world).eq run).2.1 json rfl
    obtain ⟨json', same, valid, sameTree, -, reads⟩ :=
      (tenJsonParse_complete ample text renders world).eq run
    cases same
    obtain ⟨all, cleanly⟩ := readable tree renders
    rw [← sameTree] at all
    apply (tenJsonReprint_spec doubles ample valid after).mono
    rintro reply last (⟨-, still, same⟩ | ⟨bad, -⟩)
    · exact ⟨still.trans (reads.iff.mpr cleanly), same⟩
    · exact absurd all bad

end Reprinting

section Instance

/-- The finite values of a small format: integers of at most sixteen digits. -/
structure SmallInteger where
  value : Int
  small : value.natAbs < 10 ^ 16
deriving DecidableEq, Repr

/-- Doubles whose finite values are small integers.  Only plain numerals are read
as finite. -/
instance : CDouble (Ieee SmallInteger) where
  strtod token :=
    if plain : (atol token).natAbs < 10 ^ 16 ∧ formatSigned (atol token) = token then
      .finite ⟨atol token, plain.1⟩
    else if token = asciiBytes ['-', 'n', 'a', 'n'] then .minusNan
    else if token.head? = some (ascii '-') then .minusInfinity else .infinity
  ofLongLong n :=
    if small : n.natAbs < 10 ^ 16 then .finite ⟨n, small⟩
    else if n < 0 then .minusInfinity else .infinity
  toLongLong
    | .finite v => v.value
    | _ => -2 ^ 63
  eq
    | .nan, _ | .minusNan, _ => false
    | left, right => left = right
  lt
    | .finite left, .finite right => left.value < right.value
    | .minusInfinity, .finite _ | .minusInfinity, .infinity | .finite _, .infinity => true
    | _, _ => false
  formatG17
    | .finite v => ⟨formatSigned v.value, noNul_formatSigned v.value⟩
    | .infinity => ⟨asciiBytes ['i', 'n', 'f'], by decide⟩
    | .minusInfinity => ⟨asciiBytes ['-', 'i', 'n', 'f'], by decide⟩
    | .nan => ⟨asciiBytes ['n', 'a', 'n'], by decide⟩
    | .minusNan => ⟨asciiBytes ['-', 'n', 'a', 'n'], by decide⟩

theorem ofLongLong_small {n : Int} (small : n.natAbs < 10 ^ 16) :
    (CDouble.ofLongLong n : Ieee SmallInteger) = .finite ⟨n, small⟩ :=
  dif_pos small

/-- A small integer is equal to its conversion only. -/
theorem eq_ofLongLong_iff {v : Ieee SmallInteger} {n : Int} (small : n.natAbs < 10 ^ 16) :
    CDouble.eq v (CDouble.ofLongLong n) = true ↔ v = .finite ⟨n, small⟩ := by
  rw [ofLongLong_small small]
  cases v with
  | nan => exact iff_of_false (by simp [CDouble.eq]) (by simp)
  | minusNan => exact iff_of_false (by simp [CDouble.eq]) (by simp)
  | finite v => exact decide_eq_true_iff
  | infinity => exact decide_eq_true_iff
  | minusInfinity => exact decide_eq_true_iff

theorem strtod_plain {n : Int} (small : n.natAbs < 10 ^ 16) :
    CDouble.strtod (formatSigned n) = (Ieee.finite ⟨n, small⟩ : Ieee SmallInteger) := by
  have plain : (atol (formatSigned n)).natAbs < 10 ^ 16 ∧
      formatSigned (atol (formatSigned n)) = formatSigned n := by
    rw [atol_formatSigned]
    exact ⟨small, rfl⟩
  have read : CDouble.strtod (formatSigned n) =
      (Ieee.finite ⟨atol (formatSigned n), plain.1⟩ : Ieee SmallInteger) := dif_pos plain
  simp only [read, atol_formatSigned]

theorem ieeeDoubles_smallInteger : IeeeDoubles SmallInteger where
  toLongLong_eq {v n} small equal := by
    rw [(eq_ofLongLong_iff (by omega)).mp equal]
    rfl
  lt_left {v n} m small bound equal := by
    rw [(eq_ofLongLong_iff (by omega)).mp equal, ofLongLong_small (by omega)]
    rfl
  lt_right {v n} m small bound equal := by
    rw [(eq_ofLongLong_iff (by omega)).mp equal, ofLongLong_small (by omega)]
    rfl
  strtod_formatSigned {n} small := by
    rw [strtod_plain (by omega), ofLongLong_small]
  eq_ofLongLong {n} small := by
    rw [eq_ofLongLong_iff (by omega), ofLongLong_small]
  natAbs_lt {v n} equal above below := by
    cases v with
    | finite v =>
        have upper : v.value < 10 ^ 15 := of_decide_eq_true below
        have lower : -10 ^ 15 < v.value := of_decide_eq_true above
        by_cases small : n.natAbs < 10 ^ 16
        · cases (eq_ofLongLong_iff small).mp equal
          dsimp only at upper lower
          omega
        · have large : (CDouble.ofLongLong n : Ieee SmallInteger) =
              if n < 0 then .minusInfinity else .infinity := dif_neg small
          rw [large] at equal
          split at equal <;> cases of_decide_eq_true equal
    | infinity => cases below
    | minusInfinity => cases above
    | nan => cases above
    | minusNan => cases above
  infinity_lt n := by
    cases (CDouble.ofLongLong n : Ieee SmallInteger) <;> rfl
  lt_minusInfinity n := by
    cases (CDouble.ofLongLong n : Ieee SmallInteger) <;> rfl
  lt_nan n := by
    cases (CDouble.ofLongLong n : Ieee SmallInteger) <;> rfl
  lt_minusNan n := by
    cases (CDouble.ofLongLong n : Ieee SmallInteger) <;> rfl
  number_formatG17 v := isJsonNumber_formatSigned v.value
  length_formatG17 v := by
    have length := length_formatUnsigned_le v.small (by decide)
    change (formatSigned v.value).length ≤ 31
    rw [formatSigned]
    split
    · rw [List.length_cons]
      omega
    · omega
  strtod_formatG17 v := strtod_plain v.small
  formatG17_infinity := rfl
  formatG17_minusInfinity := rfl
  formatG17_nan := rfl
  formatG17_minusNan := .inr rfl
  strtod_minusInfinity := by decide
  strtod_minusNan := by decide

/-- The text `{"a":1e999,"a":[-inf,-nan]}` normalises: the infinity does not count, and
the parser takes the words of the array for numbers. -/
theorem tenJson_normalises_iff_minusInfinity :
    Normalises SmallInteger ⟨asciiBytes ['{', '"', 'a', '"', ':', '1', 'e', '9', '9', '9', ',',
      '"', 'a', '"', ':', '[', '-', 'i', 'n', 'f', ',', '-', 'n', 'a', 'n', ']', '}'],
      by decide⟩ := by
  rw [tenJson_normalises_iff ieeeDoubles_smallInteger]
  intro tree renders
  obtain ⟨reply, after, run, json, rfl, -, sameTree, -, reads⟩ :=
    tenJsonParse_complete (D := Ieee SmallInteger) ample_always _ renders default
  have outcome : (tenJsonParse (D := Ieee SmallInteger) (some ⟨asciiBytes ['{', '"', 'a', '"', ':',
      '1', 'e', '9', '9', '9', ',', '"', 'a', '"', ':', '[', '-', 'i', 'n', 'f', ',', '-', 'n', 'a',
      'n', ']', '}'], by decide⟩) (fun _ => true) default).map
        (fun outcome => (outcome.1.map JsonNode.tree, outcome.2.strayReads)) =
      some (some (.object [(asciiBytes ['a'], .array [.number .minusInfinity, .number .minusNan])]),
        0) := by
    rfl
  rw [run, Option.map_some, Option.some.injEq, Prod.mk.injEq] at outcome
  obtain ⟨shown, unread⟩ := outcome
  rw [← sameTree, Option.some.inj shown]
  refine ⟨.object ?_, reads.iff.mp unread⟩
  rw [List.forall_mem_singleton]
  refine .array ?_
  rw [List.forall_mem_cons, List.forall_mem_singleton]
  exact ⟨.number ⟨by decide, by decide⟩, .number ⟨by decide, by decide⟩⟩

/-- The text `1e999` is accepted, but printed as `inf`. -/
theorem not_normalises_overflow : IeeeDoubles SmallInteger ∧
    CDouble.strtod (asciiBytes ['1', 'e', '9', '9', '9']) = (.infinity : Ieee SmallInteger) ∧
    ¬ Normalises SmallInteger ⟨asciiBytes ['1', 'e', '9', '9', '9'], by decide⟩ := by
  refine ⟨ieeeDoubles_smallInteger, by decide, ?_⟩
  intro normalises
  have run : tenJsonParse (D := Ieee SmallInteger)
      (some ⟨asciiBytes ['1', 'e', '9', '9', '9'], by decide⟩) (fun _ => true) default =
        some (some (.number .infinity), ⟨1, .ok, 0⟩) := rfl
  have reprint : tenJsonReprint (F := SmallInteger) (.number .infinity) (fun _ => true) ⟨1, .ok, 0⟩ =
      some ((some ⟨asciiBytes ['i', 'n', 'f'], by decide⟩, none, none), ⟨4, .nullArgument, 0⟩) := rfl
  obtain ⟨-, printed, parsed, same⟩ := (normalises _ ample_always _ _ _ run).eq reprint
  cases same

end Instance

end Dotten
