/-
Module: Dotten.Memory.OwnedJsonParserBlocks
Layer: Memory
Purpose: What the parser of json.c owns.  A value that it returns owns exactly the
  blocks that were allocated for it, and a text that it refuses, or that it has no
  memory for, leaves no block behind, at whatever place it gives up.
Imports: Dotten.Memory.OwnedJsonParser, Dotten.Json.JsonParserSound
Main exports: KeysWithin, Heap.OwnsAt, Heap.owns_tenJsonParseString, Heap.ownsAt,
  Heap.owns_tenJsonParse
-/
import Dotten.Memory.OwnedJsonParser
import Dotten.Json.JsonParserSound

namespace Dotten

open Dotten.Library

/-- Every string that the parser can read at some place of the text has the
property. -/
def KeysWithin (grants : Schedule) (text : Bytes) (keys : CString → Prop) : Prop :=
  ∀ p, p <:+ text → ∀ world string rest after,
    tenJsonParseString p grants world = some (some (string, rest), after) → keys string.cstr

theorem KeysWithin.suffix {grants : Schedule} {text p : Bytes} {keys : CString → Prop}
    (within : KeysWithin grants text keys) (suffix : p <:+ text) : KeysWithin grants p keys :=
  fun inner innerSuffix => within inner (innerSuffix.trans suffix)

theorem noNul_of_suffix {p rest : Bytes} (suffix : rest <:+ p) (noNul : (0 : Byte) ∉ p) :
    (0 : Byte) ∉ rest :=
  fun zero => noNul (suffix.subset zero)

theorem suffix_tenJsonSkipWs (p : Bytes) : tenJsonSkipWs p <:+ p := List.dropWhile_suffix _

namespace Heap

section Strings

variable {grants : Schedule}

/-- What a parsed string owns. -/
abbrev stringBlocks : Option (OwnedString × Bytes) → Multiset Nat :=
  ownsOption fun reply => reply.1.blocks

/-- The loop gives the string back, or destroys it. -/
theorem owns_tenJsonParseChars (steps : Nat) :
    ∀ {out : OwnedString} {p : Bytes}, p.length < steps → (0 : Byte) ∉ p →
      Owns grants out.blocks (tenJsonParseChars steps out p) stringBlocks fun _ => True := by
  induction steps with
  | zero =>
      intro out p enough
      omega
  | succ steps inductionHypothesis =>
      intro out p enough noNul
      have destroyed : Owns grants out.blocks
          (do
            tenStringDestroy (some out)
            return none) stringBlocks fun _ => True := by
        refine Transfers.bind (owns_tenStringDestroy (some out)) ?_
        rintro ⟨⟩ -
        exact Transfers.pure rfl trivial
      cases p with
      | nil => exact destroyed
      | cons c p =>
          rw [List.mem_cons, not_or] at noNul
          refine Transfers.ite (fun _ => Transfers.pure rfl trivial) fun notQuote => ?_
          cases read : tenJsonStringItem (c :: p) with
          | none => exact destroyed
          | some item =>
              obtain ⟨buf, rest⟩ := item
              obtain ⟨b, text, split, -⟩ :=
                tenJsonStringItem_sound notQuote (Ne.symm noNul.1) read
              obtain ⟨rfl, rfl⟩ := List.cons.inj split
              refine Transfers.bind (owns_tenStringAppend out _) ?_
              rintro ⟨rc, next⟩ -
              refine inductionHypothesis ?_ fun zero => noNul.2 (List.mem_append_right _ zero)
              simp only [List.length_cons, List.length_append] at enough
              omega

/-- What is known of a parsed string. -/
def ParsedString (keys : CString → Prop) (p : Bytes) (reply : Option (OwnedString × Bytes)) :
    Prop :=
  ∀ key rest, reply = some (key, rest) → key.string.Valid ∧ keys key.string.cstr ∧
    ∃ text, p = ascii '"' :: (text ++ ascii '"' :: rest)

/-- A string literal: two blocks, or none. -/
theorem owns_tenJsonParseString {keys : CString → Prop} {p : Bytes} (noNul : (0 : Byte) ∉ p)
    (within : KeysWithin grants p keys) :
    Owns grants 0 (tenJsonParseString p) stringBlocks (ParsedString keys p) := by
  have blocks : Owns grants 0 (tenJsonParseString p) stringBlocks fun _ => True := by
    cases p with
    | nil => exact Transfers.pure rfl trivial
    | cons c p =>
        rw [List.mem_cons, not_or] at noNul
        refine Transfers.ite (fun _ => Transfers.pure rfl trivial) fun _ => ?_
        refine Transfers.bind owns_tenStringEmpty ?_
        rintro (_ | out) -
        · exact Transfers.pure rfl trivial
        · exact owns_tenJsonParseChars _ (Nat.lt_succ_self _) noNul.2
  refine (blocks.and ?_).conseq rfl (fun _ _ => rfl) fun _ both => both.2
  rintro heap reply heap' run key rest rfl
  obtain ⟨world, plainRun, -⟩ :=
    (keeps_tenJsonParseString p).run (Eq.refl heap.world.requests) run
  obtain ⟨valid, text, split, -⟩ :=
    Returns.eq (tenJsonParseString_sound noNul) plainRun key.string rest rfl
  exact ⟨valid, within p List.suffix_rfl _ _ _ _ plainRun, text, split⟩

end Strings

section Values

variable {D : Type} {grants : Schedule} {keys : CString → Prop}

/-- What a parsed value owns. -/
abbrev valueBlocks : Option (OwnedJson D × Bytes) → Multiset Nat :=
  ownsOption fun reply => reply.1.blocks

/-- A parsed value is in order. -/
def ParsedValue (keys : CString → Prop) (reply : Option (OwnedJson D × Bytes)) : Prop :=
  ∀ json rest, reply = some (json, rest) → json.Sound keys

theorem parsedValue_none : ParsedValue (D := D) keys none := by
  rintro json rest ⟨⟩

theorem parsedValue_some {json : OwnedJson D} (sound : json.Sound keys) (rest : Bytes) :
    ParsedValue keys (some (json, rest)) := by
  rintro other rest' ⟨⟩
  exact sound

theorem owns_destroyAndFail (apart : HashesApart keys) {json : OwnedJson D}
    (sound : json.Sound keys) :
    Owns grants json.blocks (destroyAndFail json) valueBlocks (ParsedValue keys) := by
  refine Transfers.bind (owns_tenJsonDestroy apart (newValue_some sound)) ?_
  rintro ⟨⟩ -
  exact Transfers.pure rfl parsedValue_none

/-- What was held beside the value is destroyed first. -/
theorem owns_destroyBoth (apart : HashesApart keys) {json : OwnedJson D}
    (sound : json.Sound keys) {other : Multiset Nat} {destroy : Op Unit}
    (destroys : Owns grants other destroy (fun _ => 0) fun _ => True) :
    Owns grants (json.blocks + other)
      (do
        destroy
        destroyAndFail json) valueBlocks (ParsedValue keys) := by
  refine Transfers.call json.blocks destroys (add_comm _ _) ?_
  rintro ⟨⟩ -
  rw [zero_add]
  exact owns_destroyAndFail apart sound

/-- A constructor as a literal name or a number. -/
theorem owns_parsed {create : Op (Option (OwnedJson D))} {rest : Bytes}
    (creates : Owns grants 0 create (ownsOption OwnedJson.blocks) (NewValue keys)) :
    Owns grants 0
      (do
        let some json ← create
          | return none
        return some (json, rest)) valueBlocks (ParsedValue keys) := by
  refine Transfers.bind creates ?_
  rintro (_ | json) made
  · exact Transfers.pure rfl parsedValue_none
  · exact Transfers.pure rfl (parsedValue_some (made json rfl) rest)

theorem owns_tenJsonParseLiteral {create : Op (Option (OwnedJson D))} {literal p : Bytes}
    (creates : Owns grants 0 create (ownsOption OwnedJson.blocks) (NewValue keys)) :
    Owns grants 0 (tenJsonParseLiteral literal create p) valueBlocks (ParsedValue keys) :=
  Transfers.ite (fun _ => owns_parsed creates) fun _ => Transfers.pure rfl parsedValue_none

/-- Behind an item the loop goes on, or ends, or gives up. -/
theorem owns_continued (apart : HashesApart keys) {closing : Byte} {json : OwnedJson D} {p : Bytes}
    {more : Bytes → Op (Option (OwnedJson D × Bytes))} (sound : json.Sound keys)
    (onComma : ∀ tail, ascii ',' :: tail = p →
      Owns grants json.blocks (more tail) valueBlocks (ParsedValue keys)) :
    Owns grants json.blocks
      (match p with
        | [] => destroyAndFail json
        | c :: p =>
            if c = ascii ',' then more p
            else if c = closing then return some (json, p)
            else destroyAndFail json)
      valueBlocks (ParsedValue keys) := by
  cases p with
  | nil => exact owns_destroyAndFail apart sound
  | cons c p =>
      refine Transfers.ite ?_ fun _ => Transfers.ite (fun _ => ?_) fun _ => ?_
      · rintro rfl
        exact onComma p rfl
      · exact Transfers.pure rfl (parsedValue_some sound p)
      · exact owns_destroyAndFail apart sound

/-- Behind an opening bracket stands the closing one, or the first item. -/
theorem owns_opened {closing : Byte} {json : OwnedJson D} {p : Bytes}
    {items : Bytes → Op (Option (OwnedJson D × Bytes))} (sound : json.Sound keys)
    (onItem : Owns grants json.blocks (items p) valueBlocks (ParsedValue keys)) :
    Owns grants json.blocks
      (match p with
        | c :: rest => if c = closing then return some (json, rest) else items p
        | [] => items p)
      valueBlocks (ParsedValue keys) := by
  cases p with
  | nil => exact onItem
  | cons c p =>
      exact Transfers.ite (fun _ => Transfers.pure rfl (parsedValue_some sound p)) fun _ => onItem

variable [CDouble D]

/-- With this many steps, each of the three functions takes over what it is given,
and leaves what it returns. -/
structure OwnsAt (D : Type) [CDouble D] (grants : Schedule) (keys : CString → Prop) (steps : Nat) :
    Prop where
  value : ∀ {p : Bytes}, 2 * p.length + 1 ≤ steps → (0 : Byte) ∉ p → KeysWithin grants p keys →
    Owns grants 0 (tenJsonParseValue (D := D) steps p) valueBlocks (ParsedValue keys)
  elements : ∀ {self : Nat} {list : OwnedList (OwnedJson D)} {p : Bytes},
    (OwnedJson.array self list).Sound keys → 2 * p.length + 2 ≤ steps → (0 : Byte) ∉ p →
      KeysWithin grants p keys →
        Owns grants (OwnedJson.array self list).blocks
          (tenJsonParseElements steps (.array self list) p) valueBlocks (ParsedValue keys)
  members : ∀ {self : Nat} {object : OwnedObject (OwnedJson D)} {p : Bytes},
    (OwnedJson.object self object).Sound keys → 2 * p.length + 2 ≤ steps → (0 : Byte) ∉ p →
      KeysWithin grants p keys →
        Owns grants (OwnedJson.object self object).blocks
          (tenJsonParseMembers steps (.object self object) p) valueBlocks (ParsedValue keys)

/-- What is left behind a value is an end of the text. -/
theorem suffix_tenJsonParseValue {steps : Nat} {p : Bytes} (enough : 2 * p.length + 1 ≤ steps)
    (noNul : (0 : Byte) ∉ p) {heap heap' : Heap} {json : OwnedJson D} {rest : Bytes}
    (run : tenJsonParseValue steps p grants heap = some (some (json, rest), heap')) :
    rest <:+ p := by
  obtain ⟨world, plainRun, -⟩ :=
    ((keepsAt steps).value p).run (Eq.refl heap.world.requests) run
  have sound : SoundAt D grants False steps := soundAt steps
  obtain ⟨⟨before, text, tree, split, -⟩, -⟩ :=
    ((sound.value enough noNul False.elim).eq plainRun).2 json.forget rest rfl
  exact ⟨before.bytes ++ text, by rw [split, List.append_assoc]⟩

/-- A value, and where the cursor is behind it. -/
theorem OwnsAt.value_suffix {steps : Nat} (owns : OwnsAt D grants keys steps) {p : Bytes}
    (enough : 2 * p.length + 1 ≤ steps) (noNul : (0 : Byte) ∉ p)
    (within : KeysWithin grants p keys) :
    Owns grants 0 (tenJsonParseValue (D := D) steps p) valueBlocks
      (fun reply => ParsedValue keys reply ∧ ∀ json rest, reply = some (json, rest) → rest <:+ p) := by
  refine (owns.value enough noNul within).and ?_
  rintro heap reply heap' run json rest rfl
  exact suffix_tenJsonParseValue enough noNul run

theorem ownsAt_elements (apart : HashesApart keys) {steps : Nat}
    (owns : OwnsAt D grants keys steps) {self : Nat} {list : OwnedList (OwnedJson D)} {p : Bytes}
    (sound : (OwnedJson.array self list).Sound keys) (enough : 2 * p.length + 2 ≤ steps + 1)
    (noNul : (0 : Byte) ∉ p) (within : KeysWithin grants p keys) :
    Owns grants (OwnedJson.array self list).blocks
      (tenJsonParseElements (steps + 1) (.array self list) p) valueBlocks (ParsedValue keys) := by
  refine Transfers.call (OwnedJson.array self list).blocks
    (owns.value_suffix (by omega) noNul within) (zero_add _).symm ?_
  rintro (_ | ⟨element, rest⟩) ⟨parsed, suffix⟩
  · rw [valueBlocks, ownsOption_none, zero_add]
    exact owns_destroyAndFail apart sound
  have elementSound := parsed element rest rfl
  have restSuffix := suffix element rest rfl
  refine Transfers.bind ((owns_addToArray sound elementSound).conseq (add_comm _ _)
    (fun _ _ => rfl) fun _ holds => holds) ?_
  rintro ⟨rc, arr⟩ ⟨arrSound, list', rfl⟩
  refine Transfers.ite (fun failed => ?_) fun succeeded => ?_
  · rw [afterSet, if_neg failed]
    exact owns_destroyBoth apart arrSound (owns_tenJsonDestroy apart (newValue_some elementSound))
  · rw [afterSet, if_pos (not_not.mp succeeded), add_zero]
    refine owns_continued apart arrSound ?_
    intro tail split
    have skipped := suffix_tenJsonSkipWs rest
    have tailSuffix : tail <:+ p :=
      ((List.suffix_cons _ tail).trans (split ▸ skipped)).trans restSuffix
    have shorter := restSuffix.length_le
    have consumed := skipped.length_le
    rw [← split, List.length_cons] at consumed
    exact owns.elements arrSound (by omega) (noNul_of_suffix tailSuffix noNul)
      (within.suffix tailSuffix)

omit [CDouble D] in
/-- The blocks of an object with its struct. -/
theorem blocks_object_eq (self : Nat) (object : OwnedObject (OwnedJson D)) :
    (OwnedJson.object self object).blocks = {self} + objectBlocks object := by
  rw [OwnedJson.blocks_object, objectBlocks, add_assoc]

theorem ownsAt_members (apart : HashesApart keys) {steps : Nat}
    (owns : OwnsAt D grants keys steps) {self : Nat} {object : OwnedObject (OwnedJson D)}
    {p : Bytes} (sound : (OwnedJson.object self object).Sound keys)
    (enough : 2 * p.length + 2 ≤ steps + 1) (noNul : (0 : Byte) ∉ p)
    (within : KeysWithin grants p keys) :
    Owns grants (OwnedJson.object self object).blocks
      (tenJsonParseMembers (steps + 1) (.object self object) p) valueBlocks
      (ParsedValue keys) := by
  have start := suffix_tenJsonSkipWs p
  refine Transfers.call (OwnedJson.object self object).blocks
    (owns_tenJsonParseString (noNul_of_suffix start noNul) (within.suffix start))
    (zero_add _).symm ?_
  rintro (_ | ⟨key, afterKey⟩) parsed
  · rw [stringBlocks, ownsOption_none, zero_add]
    exact owns_destroyAndFail apart sound
  obtain ⟨keyValid, keyNamed, literal, startSplit⟩ := parsed key afterKey rfl
  have destroyed : Owns grants (key.blocks + (OwnedJson.object self object).blocks)
      (do
        tenStringDestroy (some key)
        destroyAndFail (.object self object)) valueBlocks (ParsedValue keys) := by
    rw [add_comm]
    exact owns_destroyBoth apart sound (owns_tenStringDestroy (some key))
  have colonSuffix := suffix_tenJsonSkipWs afterKey
  dsimp only [stringBlocks, ownsOption_some]
  cases colon : tenJsonSkipWs afterKey with
  | nil => exact destroyed
  | cons c afterColon =>
      refine Transfers.ite (fun _ => destroyed) fun _ => ?_
      rw [colon] at colonSuffix
      have valueSuffix : afterColon <:+ p := by
        refine (List.suffix_cons _ _).trans (colonSuffix.trans (.trans ?_ start))
        rw [startSplit, ← List.cons_append]
        exact (List.suffix_cons _ _).trans (List.suffix_append _ _)
      have shorter : afterColon.length + 3 ≤ p.length := by
        have before := start.length_le
        have between := colonSuffix.length_le
        simp only [startSplit, List.length_cons, List.length_append] at before between
        omega
      refine Transfers.call (key.blocks + (OwnedJson.object self object).blocks)
        (owns.value_suffix (by omega) (noNul_of_suffix valueSuffix noNul)
          (within.suffix valueSuffix)) (zero_add _).symm ?_
      rintro (_ | ⟨value, rest⟩) ⟨parsedValue, suffix⟩
      · rw [valueBlocks, ownsOption_none, zero_add]
        exact destroyed
      have valueSound := parsedValue value rest rfl
      have restSuffix := (suffix value rest rfl).trans valueSuffix
      cases sound with
      | object valid named values =>
          refine Transfers.call {self}
            (owns_tenJsonObjectSetOwned apart ⟨valid, named, values⟩ keyValid keyNamed
              valueSound) ?_ ?_
          · rw [blocks_object_eq, valueBlocks, ownsOption_some]
            abel
          rintro ⟨rc, object'⟩ afterSound
          have objectSound : (OwnedJson.object self object').Sound keys :=
            .object afterSound.valid afterSound.named afterSound.values
          have objectHeld : objectBlocks object' + {self} =
              (OwnedJson.object self object').blocks := by
            rw [blocks_object_eq, add_comm]
          refine Transfers.ite (fun failed => ?_) fun succeeded => ?_
          · rw [afterSet, if_neg failed, add_right_comm, objectHeld]
            exact owns_destroyBoth apart objectSound
              (owns_tenJsonDestroy apart (newValue_some valueSound))
          · rw [afterSet, if_pos (not_not.mp succeeded), add_zero, objectHeld]
            refine owns_continued apart objectSound ?_
            intro tail split
            have skipped := suffix_tenJsonSkipWs rest
            have tailSuffix : tail <:+ p :=
              ((List.suffix_cons _ tail).trans (split ▸ skipped)).trans restSuffix
            have consumed := skipped.length_le
            have left := (suffix value rest rfl).length_le
            rw [← split, List.length_cons] at consumed
            exact owns.members objectSound (by omega) (noNul_of_suffix tailSuffix noNul)
              (within.suffix tailSuffix)

theorem ownsAt_value {steps : Nat} (owns : OwnsAt D grants keys steps) {p : Bytes}
    (enough : 2 * p.length + 1 ≤ steps + 1) (noNul : (0 : Byte) ∉ p)
    (within : KeysWithin grants p keys) :
    Owns grants 0 (tenJsonParseValue (D := D) (steps + 1) p) valueBlocks (ParsedValue keys) := by
  have start := suffix_tenJsonSkipWs p
  unfold tenJsonParseValue
  cases skipped : tenJsonSkipWs p with
  | nil => exact Transfers.pure rfl parsedValue_none
  | cons c rest =>
      rw [skipped] at start
      have tailSuffix : tenJsonSkipWs rest <:+ p :=
        (suffix_tenJsonSkipWs rest).trans ((List.suffix_cons _ _).trans start)
      have shorter : (tenJsonSkipWs rest).length + 1 ≤ p.length := by
        have whole := start.length_le
        have part := (suffix_tenJsonSkipWs rest).length_le
        rw [List.length_cons] at whole
        omega
      have tailNoNul := noNul_of_suffix tailSuffix noNul
      refine Transfers.ite (fun _ => owns_tenJsonParseLiteral owns_tenJsonCreateNull) fun _ => ?_
      refine Transfers.ite (fun _ => owns_tenJsonParseLiteral (owns_tenJsonCreateBool _))
        fun _ => ?_
      refine Transfers.ite (fun _ => owns_tenJsonParseLiteral (owns_tenJsonCreateBool _))
        fun _ => ?_
      refine Transfers.ite (fun _ => ?_) fun _ => ?_
      · refine Transfers.bind
          (owns_tenJsonParseString (noNul_of_suffix start noNul) (within.suffix start)) ?_
        rintro (_ | ⟨string, afterString⟩) parsed
        · exact Transfers.pure rfl parsedValue_none
        obtain ⟨valid, -, -⟩ := parsed string afterString rfl
        exact owns_allocString parsedValue_none fun self =>
          Transfers.pure rfl (parsedValue_some (.string valid) afterString)
      refine Transfers.ite (fun _ => ?_) fun _ => ?_
      · refine Transfers.bind owns_tenJsonCreateArray ?_
        rintro (_ | json) made
        · exact Transfers.pure rfl parsedValue_none
        obtain ⟨self, list, rfl, valid, empty⟩ := made json rfl
        have sound : (OwnedJson.array self list).Sound keys :=
          .array valid (by rw [empty]; exact List.forall_mem_nil _)
        exact owns_opened sound
          (owns.elements sound (by omega) tailNoNul (within.suffix tailSuffix))
      refine Transfers.ite (fun _ => ?_) fun _ => ?_
      · refine Transfers.bind owns_tenJsonCreateObject ?_
        rintro (_ | json) made
        · exact Transfers.pure rfl parsedValue_none
        obtain ⟨self, object, rfl, valid, noKeys, noEntries⟩ := made json rfl
        have sound : (OwnedJson.object self object).Sound keys :=
          .object valid (by rw [noKeys]; exact List.forall_mem_nil _)
            (by rw [noEntries]; exact List.forall_mem_nil _)
        exact owns_opened sound
          (owns.members sound (by omega) tailNoNul (within.suffix tailSuffix))
      refine Transfers.ite (fun _ => ?_) fun _ => Transfers.pure rfl parsedValue_none
      exact Transfers.ite (fun _ => Transfers.pure rfl parsedValue_none) fun _ =>
        owns_parsed (owns_tenJsonCreateNumber _)

/-- With enough steps the parser never touches a block that is not in use, and
returns what it owns, whichever allocations are refused. -/
theorem ownsAt (apart : HashesApart keys) (steps : Nat) : OwnsAt D grants keys steps := by
  induction steps with
  | zero =>
      constructor
      · intro p enough
        omega
      · intro self list p sound enough
        omega
      · intro self object p sound enough
        omega
  | succ steps inductionHypothesis =>
      exact ⟨ownsAt_value inductionHypothesis, ownsAt_elements apart inductionHypothesis,
        ownsAt_members apart inductionHypothesis⟩

/-- `ten_json_parse`. -/
theorem owns_tenJsonParse (apart : HashesApart keys) {text : Option CString}
    (within : ∀ bytes, text = some bytes → KeysWithin grants bytes.bytes keys) :
    Owns grants 0 (tenJsonParse (D := D) text) (ownsOption OwnedJson.blocks) (NewValue keys) := by
  have failed : Owns grants 0
      (do
        tenSetError .parse
        return none) (ownsOption OwnedJson.blocks) (NewValue (D := D) keys) := by
    refine Transfers.bind (owns_tenSetError _) ?_
    rintro ⟨⟩ -
    exact Transfers.pure rfl newValue_none
  cases text with
  | none =>
      refine Transfers.bind (owns_tenSetError _) ?_
      rintro ⟨⟩ -
      exact Transfers.pure rfl newValue_none
  | some text =>
      refine Transfers.bind ((ownsAt apart _).value le_rfl text.noNul (within text rfl)) ?_
      rintro (_ | ⟨result, p⟩) parsed
      · exact failed
      have sound := parsed result p rfl
      refine Transfers.ite (fun _ => ?_) fun _ => ?_
      · refine Transfers.bind (owns_tenJsonDestroy apart (newValue_some sound)) ?_
        rintro ⟨⟩ -
        exact failed
      · refine Transfers.bind (owns_tenSetError _) ?_
        rintro ⟨⟩ -
        exact Transfers.pure rfl (newValue_some sound)

end Values

end Heap

end Dotten
