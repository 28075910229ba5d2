/-
Module: Dotten.Json.JsonCursor
Layer: Json
Purpose: The cursor of the parser moves on only and stays inside the text, every
  read is in front of the end, and every call ends: on any text, whichever
  allocations are refused, and for any `strtod` that stops at the NUL.
Imports: Dotten.Json.TenJsonCursor, Dotten.Json.JsonParserSound,
  Dotten.Core.Printf
Main exports: CursorAt, cursorAt, cursor_discipline
-/
import Dotten.Json.TenJsonCursor
import Dotten.Json.JsonParserSound
import Dotten.Core.Printf

namespace Dotten

open Dotten.Library

section Leaves

variable {text : Bytes} {cursor : Nat}

/-- Skipping white space ends in front of the first byte that is none. -/
theorem skipLoop_eq (passes : Nat) :
    ∀ cursor, text.length ≤ cursor + passes →
      ∃ after, Cursor.skipLoop text passes cursor = pure after ∧ cursor ≤ after ∧
        (cursor ≤ text.length → after ≤ text.length) ∧
        text.drop after = tenJsonSkipWs (text.drop cursor) := by
  induction passes with
  | zero =>
      intro cursor enough
      have beyond : text.length ≤ cursor := enough
      refine ⟨cursor, ?_, Nat.le_refl _, id, ?_⟩
      · rw [Cursor.skipLoop, if_neg (Nat.not_lt.mpr beyond)]
      · rw [List.drop_eq_nil_of_le beyond]
        rfl
  | succ passes inductionHypothesis =>
      intro cursor enough
      cases rest : text.drop cursor with
      | nil =>
          have beyond : text.length ≤ cursor := List.drop_eq_nil_iff.mp rest
          refine ⟨cursor, ?_, Nat.le_refl _, id, rest⟩
          rw [Cursor.skipLoop, if_neg (Nat.not_lt.mpr beyond)]
      | cons c tail =>
          have length := length_of_drop rest
          rw [Cursor.skipLoop, if_pos (by omega), readAt_of_drop rest, pure_bind, tenJsonSkipWs,
            List.dropWhile_cons]
          cases space : tenJsonIsWs c with
          | false => exact ⟨cursor, rfl, Nat.le_refl _, id, rest⟩
          | true =>
              obtain ⟨after, run, onward, within, left⟩ :=
                inductionHypothesis (cursor + 1) (by omega)
              rw [if_pos rfl, if_pos rfl, moveTo_eq (Nat.le_succ _) (by omega), pure_bind, run]
              refine ⟨after, rfl, by omega, fun _ => within (by omega), ?_⟩
              rw [left, drop_succ_of_drop rest]
              rfl

theorem skipWs_seen (text : Bytes) (cursor : Nat) :
    ∃ after, Cursor.tenJsonSkipWs text cursor = pure after ∧ cursor ≤ after ∧
      (cursor ≤ text.length → after ≤ text.length) ∧
      text.drop after = tenJsonSkipWs (text.drop cursor) :=
  skipLoop_eq _ cursor (by omega)

theorem skipWs_eq (inside : cursor ≤ text.length) :
    ∃ after, Cursor.tenJsonSkipWs text cursor = pure after ∧ cursor ≤ after ∧
      after ≤ text.length := by
  obtain ⟨after, run, onward, within, -⟩ := skipWs_seen text cursor
  exact ⟨after, run, onward, within inside⟩

/-- Four bytes that are there are read as digits. -/
theorem parseHex4_eq {s0 s1 s2 s3 : Byte} {tail : Bytes}
    (rest : text.drop cursor = s0 :: s1 :: s2 :: s3 :: tail) :
    Cursor.tenJsonParseHex4 text cursor = pure (tenJsonParseHex4 s0 s1 s2 s3) := by
  have second := drop_succ_of_drop rest
  have third := drop_succ_of_drop second
  have fourth := drop_succ_of_drop third
  rw [Cursor.tenJsonParseHex4, readAt_of_drop rest, pure_bind, readAt_of_drop second, pure_bind,
    readAt_of_drop third, pure_bind, readAt_of_drop fourth, pure_bind]

/-- The escape of a low surrogate is looked at only if six bytes are left. -/
theorem lowSurrogate_short (short : text.length - cursor < 6) :
    Cursor.lowSurrogate text cursor = pure none := by
  rw [Cursor.lowSurrogate, if_pos short]

theorem lowSurrogate_eq {b u e0 e1 e2 e3 : Byte} {tail : Bytes}
    (rest : text.drop cursor = b :: u :: e0 :: e1 :: e2 :: e3 :: tail) :
    Cursor.lowSurrogate text cursor =
      pure (if b ≠ ascii '\\' ∨ u ≠ ascii 'u' then none
        else match tenJsonParseHex4 e0 e1 e2 e3 with
          | none => none
          | some low => if low < 0xDC00 ∨ low > 0xDFFF then none else some low) := by
  have second := drop_succ_of_drop rest
  have digits := drop_succ_of_drop second
  have length := length_of_drop rest
  simp only [List.length_cons] at length
  rw [Cursor.lowSurrogate, if_neg (by omega), readAt_of_drop rest, pure_bind]
  by_cases isEscape : b = ascii '\\'
  · rw [if_neg (not_not.mpr isEscape), readAt_of_drop second, pure_bind]
    by_cases isUnicode : u = ascii 'u'
    · rw [if_neg (not_not.mpr isUnicode), parseHex4_eq digits, pure_bind,
        if_neg (not_or.mpr ⟨not_not.mpr isEscape, not_not.mpr isUnicode⟩)]
      cases tenJsonParseHex4 e0 e1 e2 e3 <;> rfl
    · rw [if_pos isUnicode, if_pos (.inr isUnicode)]
  · rw [if_pos isEscape, if_pos (.inl isEscape)]

/-- An escape of a code unit or of a pair of them. -/
theorem unicodeEscape_eq {c : Byte} {p : Bytes} (rest : text.drop cursor = c :: p) :
    ∃ reply, Cursor.unicodeEscape text cursor = pure reply ∧
      Onward text.length cursor (fun _ => True) reply ∧
      seen text reply = tenJsonUnicodeEscape p := by
  have length := length_of_drop rest
  have left := drop_succ_of_drop rest
  rw [Cursor.unicodeEscape, moveTo_eq (Nat.le_succ _) (by omega), pure_bind]
  rcases p with _ | ⟨d0, _ | ⟨d1, _ | ⟨d2, _ | ⟨d3, p⟩⟩⟩⟩
  iterate 4
    · simp only [List.length_cons, List.length_nil] at length
      rw [if_pos (by omega)]
      exact ⟨_, rfl, onward_fail (Nat.le_succ _) (by omega), rfl⟩
  have behind : text.drop (cursor + 1 + 4) = p := by
    rw [← List.drop_drop, left]
    rfl
  simp only [List.length_cons] at length
  rw [if_neg (by omega), parseHex4_eq left, pure_bind, tenJsonUnicodeEscape]
  cases tenJsonParseHex4 d0 d1 d2 d3 with
  | none => exact ⟨_, rfl, onward_fail (Nat.le_succ _) (by omega), rfl⟩
  | some cp =>
      dsimp only
      rw [moveTo_eq (Nat.le_add_right _ _) (by omega), pure_bind]
      by_cases high : 0xD800 ≤ cp ∧ cp ≤ 0xDBFF
      · rw [if_pos high, if_pos high]
        rcases p with _ | ⟨b, _ | ⟨u, _ | ⟨e0, _ | ⟨e1, _ | ⟨e2, _ | ⟨e3, p⟩⟩⟩⟩⟩⟩
        iterate 6
          · simp only [List.length_cons, List.length_nil] at length
            rw [lowSurrogate_short (by omega), pure_bind]
            exact ⟨_, rfl, onward_fail (by omega) (by omega), rfl⟩
        have further : text.drop (cursor + 1 + 4 + 6) = p := by
          rw [← List.drop_drop, behind]
          rfl
        simp only [List.length_cons] at length
        rw [lowSurrogate_eq behind, pure_bind]
        dsimp only
        split_ifs with wrong
        · exact ⟨_, rfl, onward_fail (by omega) (by omega), rfl⟩
        · cases tenJsonParseHex4 e0 e1 e2 e3 with
          | none => exact ⟨_, rfl, onward_fail (by omega) (by omega), rfl⟩
          | some low =>
              dsimp only
              split_ifs with outside
              · exact ⟨_, rfl, onward_fail (by omega) (by omega), rfl⟩
              · dsimp only
                rw [moveTo_eq (Nat.le_add_right _ _) (by omega), pure_bind]
                refine ⟨_, rfl, onward_done (by omega) (by omega) trivial, ?_⟩
                rw [seen_some, further]
      · rw [if_neg high, if_neg high]
        refine ⟨_, rfl, onward_done (by omega) (by omega) trivial, ?_⟩
        rw [seen_some, behind]

theorem tenJsonStringItem_cons (c : Byte) (p : Bytes) :
    tenJsonStringItem (c :: p) =
      if c ≠ ascii '\\' then some ([c], p)
      else match p with
        | [] => none
        | c :: p => match tenJsonSimpleEscape c with
          | some b => some ([b], p)
          | none => if c = ascii 'u' then tenJsonUnicodeEscape p else none := rfl

/-- One pass of the loop of `ten__json_parse_string`. -/
theorem stringItem_eq {c : Byte} {p : Bytes} (rest : text.drop cursor = c :: p) :
    ∃ reply, Cursor.stringItem text cursor = pure reply ∧
      Onward text.length cursor (fun _ => True) reply ∧
      seen text reply = tenJsonStringItem (c :: p) := by
  have length := length_of_drop rest
  have left := drop_succ_of_drop rest
  rw [tenJsonStringItem_cons, Cursor.stringItem, readAt_of_drop rest, pure_bind,
    moveTo_eq (Nat.le_succ _) (by omega), pure_bind, pure_bind]
  by_cases plain : c ≠ ascii '\\'
  · rw [if_pos plain, if_pos plain]
    refine ⟨_, rfl, onward_done (Nat.lt_succ_self _) (by omega) trivial, ?_⟩
    rw [seen_some, left]
  rw [if_neg plain, if_neg plain]
  cases p with
  | nil =>
      rw [List.length_nil] at length
      rw [if_pos (by omega)]
      exact ⟨_, rfl, onward_fail (Nat.le_succ _) (by omega), rfl⟩
  | cons letter p =>
      rw [List.length_cons] at length
      rw [if_neg (by omega), readAt_of_drop left, pure_bind]
      dsimp only
      cases tenJsonSimpleEscape letter with
      | some b =>
          dsimp only
          rw [moveTo_eq (Nat.le_succ _) (by omega), pure_bind]
          refine ⟨_, rfl, onward_done (by omega) (by omega) trivial, ?_⟩
          rw [seen_some, drop_succ_of_drop left]
      | none =>
          dsimp only
          split_ifs with unicode
          · obtain ⟨reply, run, onward, same⟩ := unicodeEscape_eq left
            exact ⟨reply, run, onward.behind (Nat.le_succ _), same⟩
          · exact ⟨_, rfl, onward_fail (Nat.le_succ _) (by omega), rfl⟩

theorem closeString_end {out : TenString} (beyond : text.length ≤ cursor) :
    Cursor.closeString text out cursor = pure (none, cursor) := by
  rw [Cursor.closeString, if_pos beyond]

theorem closeString_quote {out : TenString} {tail : Bytes}
    (rest : text.drop cursor = ascii '"' :: tail) :
    Cursor.closeString text out cursor = pure (some out, cursor + 1) := by
  have length := length_of_drop rest
  rw [Cursor.closeString, if_neg (by omega), readAt_of_drop rest, pure_bind,
    if_neg (not_not.mpr rfl), moveTo_eq (Nat.le_succ _) (by omega), pure_bind]

theorem standsAt_eq (closing : Byte) :
    Cursor.standsAt text closing cursor = pure (decide ((text.drop cursor).head? = some closing)) := by
  cases rest : text.drop cursor with
  | nil =>
      have beyond : text.length ≤ cursor := List.drop_eq_nil_iff.mp rest
      rw [Cursor.standsAt, if_neg (Nat.not_lt.mpr beyond)]
      rfl
  | cons c tail =>
      have length := length_of_drop rest
      rw [Cursor.standsAt, if_pos (by omega), readAt_of_drop rest, pure_bind, List.head?_cons]
      exact congrArg pure (decide_eq_decide.mpr Option.some_inj.symm)

end Leaves

section Strings

variable {text : Bytes} {grants : Schedule}

/-- The loop of `ten__json_parse_string` ends, in front of the end of the text or
behind the closing quote. -/
theorem parseChars_onward (passes : Nat) :
    ∀ {cursor : Nat} {out : TenString} {world : World}, cursor ≤ text.length →
      text.length < cursor + passes → out.Valid →
      Returns (Cursor.parseChars text passes out cursor) grants world
        (fun reply _ => Onward text.length cursor TenString.Valid reply) := by
  induction passes with
  | zero =>
      intro cursor out world inside enough
      omega
  | succ passes inductionHypothesis =>
      intro cursor out world inside enough valid
      rw [Cursor.parseChars]
      cases rest : text.drop cursor with
      | nil =>
          have beyond : text.length ≤ cursor := List.drop_eq_nil_iff.mp rest
          rw [if_neg (Nat.not_lt.mpr beyond), closeString_end beyond, returns_pure]
          exact onward_fail (Nat.le_refl _) inside
      | cons c tail =>
          have length := length_of_drop rest
          rw [if_pos (by omega), readAt_of_drop rest, pure_bind]
          by_cases quote : c = ascii '"'
          · subst quote
            rw [if_neg (not_not.mpr rfl), closeString_quote rest, returns_pure]
            exact onward_done (Nat.lt_succ_self _) (by omega) valid
          · obtain ⟨⟨buf, after⟩, run, item, -⟩ := stringItem_eq rest
            rw [if_pos quote, run, pure_bind]
            cases buf with
            | none =>
                rw [returns_pure]
                exact onward_fail item.onward item.inside
            | some buf =>
                have advanced := (item.success buf rfl).1
                simp only [returns_bind]
                apply (tenStringAppend_spec valid _).mono
                rintro ⟨rc, next⟩ last ⟨-, -, -, outcome⟩
                have nextValid : next.Valid := by
                  cases outcome with
                  | appended nextValid _ => exact nextValid
                  | refused _ => exact valid
                apply (inductionHypothesis item.inside (by omega) nextValid).mono
                intro reply final onward
                exact onward.behind item.onward

/-- `ten__json_parse_string`. -/
theorem parseString_onward {cursor : Nat} {world : World} (inside : cursor ≤ text.length) :
    Returns (Cursor.tenJsonParseString text cursor) grants world
      (fun reply _ => Onward text.length cursor TenString.Valid reply) := by
  rw [Cursor.tenJsonParseString]
  cases rest : text.drop cursor with
  | nil =>
      have beyond : text.length ≤ cursor := List.drop_eq_nil_iff.mp rest
      rw [if_pos beyond, returns_pure]
      exact onward_fail (Nat.le_refl _) inside
  | cons c tail =>
      have length := length_of_drop rest
      rw [if_neg (by omega), readAt_of_drop rest, pure_bind]
      apply returns_ite
      · intro _
        rw [returns_pure]
        exact onward_fail (Nat.le_refl _) inside
      · intro _
        rw [moveTo_eq (Nat.le_succ _) (by omega), pure_bind, returns_bind]
        apply tenStringEmpty_spec.mono
        rintro reply between ⟨-, ⟨rfl, -⟩ | ⟨out, rfl, valid, -⟩⟩
        · rw [returns_pure]
          exact onward_fail (Nat.le_succ _) (by omega)
        · apply (parseChars_onward _ (by omega) (by omega) valid).mono
          intro reply after onward
          exact onward.behind (Nat.le_succ _)

end Strings

section Values

variable {D : Type} [CDouble D] {text : Bytes} {strtodEnd : Bytes → Nat} {grants : Schedule}

/-- What a call comes to that returns a value. -/
def ValueOnward (text : Bytes) (start : Nat) (reply : Option (JsonNode D) × Nat) (_ : World) : Prop :=
  Onward text.length start (fun _ => True) reply

omit [CDouble D] in
/-- A value is created when the cursor stands behind its text. -/
theorem created_onward {create : Ten (Option (JsonNode D))} {expected : JsonNode D → Prop}
    {world : World} (creates : Creates grants world expected create) {start after : Nat}
    (before : start < after) (inside : after ≤ text.length) :
    Returns (do
        let json ← create
        return (json, after)) grants world (ValueOnward text start) := by
  rw [returns_bind]
  apply Returns.mono creates
  rintro reply last (⟨rfl, -⟩ | ⟨json, rfl, -⟩)
  · rw [returns_pure]
    exact onward_fail (Nat.le_of_lt before) inside
  · rw [returns_pure]
    exact onward_done before inside trivial

omit [CDouble D] in
theorem parseLiteral_onward {literal : Bytes} (nonempty : 0 < literal.length)
    {create : Ten (Option (JsonNode D))} {expected : JsonNode D → Prop}
    (creates : ∀ world, Creates grants world expected create) {cursor : Nat} {world : World}
    (inside : cursor ≤ text.length) :
    Returns (Cursor.parseLiteral text literal create cursor) grants world
      (ValueOnward text cursor) := by
  rw [Cursor.parseLiteral]
  apply returns_ite
  · intro enough
    rw [matchAt_eq (by omega), pure_bind]
    apply returns_ite
    · intro _
      rw [moveTo_eq (Nat.le_add_right _ _) (by omega), pure_bind]
      exact created_onward (creates world) (by omega) (by omega)
    · intro _
      rw [returns_pure]
      exact onward_fail (Nat.le_refl _) inside
  · intro _
    rw [returns_pure]
    exact onward_fail (Nat.le_refl _) inside

/-- A number moves the cursor to where `strtod` stops. -/
theorem parseNumber_onward (stops : ∀ rest, strtodEnd rest ≤ rest.length) {cursor : Nat}
    {world : World} (inside : cursor ≤ text.length) :
    Returns (Cursor.tenJsonParseNumber (D := D) text strtodEnd cursor) grants world
      (ValueOnward text cursor) := by
  have within := stops (text.drop cursor)
  rw [List.length_drop] at within
  rw [Cursor.tenJsonParseNumber]
  apply returns_ite
  · intro _
    rw [returns_pure]
    exact onward_fail (Nat.le_refl _) inside
  · intro converted
    dsimp only
    rw [moveTo_eq (Nat.le_add_right _ _) (by omega), pure_bind]
    exact created_onward (tenJsonCreateNumber_spec _) (by omega) (by omega)

/-- With this many steps, each of the three functions returns from every place of
the text, and has moved the cursor on. -/
structure CursorAt (D : Type) [CDouble D] (text : Bytes) (strtodEnd : Bytes → Nat)
    (grants : Schedule) (steps : Nat) : Prop where
  value : ∀ {world : World} {cursor : Nat}, cursor ≤ text.length →
    2 * (text.length - cursor) + 1 ≤ steps →
    Returns (Cursor.tenJsonParseValue (D := D) text strtodEnd steps cursor) grants world
      (ValueOnward text cursor)
  elements : ∀ {world : World} {cursor : Nat} {list : TenList (JsonNode D)},
    cursor ≤ text.length → 2 * (text.length - cursor) + 2 ≤ steps →
    Returns (Cursor.parseElements text strtodEnd steps (.array list) cursor) grants world
      (ValueOnward text cursor)
  members : ∀ {world : World} {cursor : Nat} {object : JsonObject (JsonNode D)},
    cursor ≤ text.length → 2 * (text.length - cursor) + 2 ≤ steps → object.Valid →
    Returns (Cursor.parseMembers text strtodEnd steps (.object object) cursor) grants world
      (ValueOnward text cursor)

omit [CDouble D] in
/-- A destroyed value and NULL leave the cursor where it is. -/
theorem destroyAndFail_onward {json : JsonNode D} {start after : Nat} {world : World}
    (onward : start ≤ after) (inside : after ≤ text.length) :
    Returns (Cursor.destroyAndFail json after) grants world (ValueOnward text start) := by
  rw [Cursor.destroyAndFail, returns_bind]
  apply (tenJsonDestroy_spec json).mono
  intro _ last _
  rw [returns_pure]
  exact onward_fail onward inside

omit [CDouble D] in
theorem destroyBothAndFail_onward {value json : JsonNode D} {start after : Nat} {world : World}
    (onward : start ≤ after) (inside : after ≤ text.length) :
    Returns (do
        tenJsonDestroy (some value)
        Cursor.destroyAndFail json after) grants world (ValueOnward text start) := by
  rw [returns_bind]
  apply (tenJsonDestroy_spec value).mono
  intro _ last _
  exact destroyAndFail_onward onward inside

omit [CDouble D] in
/-- Behind an item stands a comma, and the loop goes on, or the end of the list,
or neither. -/
theorem returns_delimited {closing : Byte} {json : JsonNode D} {start after : Nat} {world : World}
    {more : Nat → Ten (Option (JsonNode D) × Nat)} (before : start < after)
    (inside : after ≤ text.length)
    (onComma : ∀ next, after < next → next ≤ text.length →
      Returns (more next) grants world (ValueOnward text start)) :
    Returns (do
        let cursor ← Cursor.tenJsonSkipWs text after
        if cursor ≥ text.length then
          Cursor.destroyAndFail json cursor
        else
          let c ← readAt text cursor
          if c = ascii ',' then
            let cursor ← moveTo text.length cursor (cursor + 1)
            more cursor
          else if c = closing then
            let cursor ← moveTo text.length cursor (cursor + 1)
            return (some json, cursor)
          else
            Cursor.destroyAndFail json cursor) grants world (ValueOnward text start) := by
  obtain ⟨cursor, run, skipped, within⟩ := skipWs_eq inside
  rw [run, pure_bind]
  apply returns_ite
  · intro _
    exact destroyAndFail_onward (by omega) within
  · intro here
    rw [readAt_of_lt (Nat.lt_of_not_le here), pure_bind]
    apply returns_ite
    · intro _
      rw [moveTo_eq (Nat.le_succ _) (by omega), pure_bind]
      exact onComma _ (by omega) (by omega)
    · intro _
      apply returns_ite
      · intro _
        rw [moveTo_eq (Nat.le_succ _) (by omega), pure_bind, returns_pure]
        exact onward_done (by omega) (by omega) trivial
      · intro _
        exact destroyAndFail_onward (by omega) within

omit [CDouble D] in
/-- Behind an opening bracket stands the closing one, or the loop begins. -/
theorem returns_opened {closing : Byte} {json : JsonNode D} {start : Nat} {world : World}
    {loop : Nat → Ten (Option (JsonNode D) × Nat)} (here : start < text.length)
    (items : ∀ next, start < next → next ≤ text.length →
      Returns (loop next) grants world (ValueOnward text start)) :
    Returns (do
        let cursor ← moveTo text.length start (start + 1)
        let cursor ← Cursor.tenJsonSkipWs text cursor
        let closed ← Cursor.standsAt text closing cursor
        if closed then
          let cursor ← moveTo text.length cursor (cursor + 1)
          return (some json, cursor)
        else
          loop cursor) grants world (ValueOnward text start) := by
  have behind : start + 1 ≤ text.length := here
  rw [moveTo_eq (Nat.le_succ _) here, pure_bind]
  obtain ⟨cursor, run, skipped, within⟩ := skipWs_eq behind
  rw [run, pure_bind, standsAt_eq, pure_bind]
  apply returns_ite
  · intro closed
    have inFront : cursor < text.length := by
      by_contra beyond
      rw [List.drop_eq_nil_of_le (Nat.le_of_not_lt beyond)] at closed
      cases of_decide_eq_true closed
    rw [moveTo_eq (Nat.le_succ _) inFront, pure_bind, returns_pure]
    exact onward_done (by omega) inFront trivial
  · intro _
    exact items cursor (by omega) within

section Steps

variable {steps : Nat} (calls : CursorAt D text strtodEnd grants steps) {world : World} {cursor : Nat}

include calls

/-- The loop over the elements, from what it calls. -/
theorem elements_onward {list : TenList (JsonNode D)} (inside : cursor ≤ text.length)
    (enough : 2 * (text.length - cursor) + 2 ≤ steps + 1) :
    Returns (Cursor.parseElements text strtodEnd (steps + 1) (.array list) cursor) grants world
      (ValueOnward text cursor) := by
  rw [Cursor.parseElements, returns_bind]
  apply (calls.value inside (by omega)).mono
  rintro ⟨element, after⟩ between value
  cases element with
  | none => exact destroyAndFail_onward value.onward value.inside
  | some json =>
      have advanced : cursor < after := (value.success json rfl).1
      have within : after ≤ text.length := value.inside
      simp only [returns_bind]
      apply (tenJsonArrayAdd_spec list json).mono
      rintro ⟨rc, array⟩ last added
      apply returns_ite
      · intro _
        exact destroyBothAndFail_onward value.onward within
      · intro succeeded
        rcases added with ⟨same, -⟩ | ⟨list', same, -⟩
        · cases same
          exact absurd (by simp) succeeded
        · cases same
          apply returns_delimited advanced within
          intro next later inText
          apply (calls.elements inText (by omega)).mono
          intro reply final onward
          exact onward.behind (by omega)

/-- The loop over the members, from what it calls. -/
theorem members_onward {object : JsonObject (JsonNode D)} (inside : cursor ≤ text.length)
    (enough : 2 * (text.length - cursor) + 2 ≤ steps + 1) (valid : object.Valid) :
    Returns (Cursor.parseMembers text strtodEnd (steps + 1) (.object object) cursor) grants world
      (ValueOnward text cursor) := by
  rw [Cursor.parseMembers]
  obtain ⟨atKey, run, skipped, keyInside⟩ := skipWs_eq inside
  rw [run, pure_bind, returns_bind]
  apply (parseString_onward keyInside).mono
  rintro ⟨key, afterKey⟩ between string
  have keyWithin : afterKey ≤ text.length := string.inside
  have keyOnward : atKey ≤ afterKey := string.onward
  cases key with
  | none => exact destroyAndFail_onward (by omega) keyWithin
  | some key =>
      obtain ⟨keyAdvanced, keyValid⟩ := string.success key rfl
      obtain ⟨atColon, runColon, skippedColon, colonInside⟩ := skipWs_eq keyWithin
      simp only [runColon, pure_bind, standsAt_eq]
      apply returns_ite
      · intro _
        exact destroyAndFail_onward (by omega) colonInside
      · intro colon
        have inFront : atColon < text.length := by
          by_contra beyond
          rw [List.drop_eq_nil_of_le (Nat.le_of_not_lt beyond)] at colon
          exact colon (by decide)
        rw [moveTo_eq (Nat.le_succ _) inFront, pure_bind, returns_bind]
        apply (calls.value inFront (by omega)).mono
        rintro ⟨value, after⟩ valueWorld member
        have within : after ≤ text.length := member.inside
        have onward : atColon + 1 ≤ after := member.onward
        cases value with
        | none => exact destroyAndFail_onward (by omega) within
        | some json =>
            simp only [returns_bind]
            apply (tenJsonObjectSetOwned_spec valid keyValid json).mono
            rintro ⟨rc, object'⟩ last set
            apply returns_ite
            · intro _
              exact destroyBothAndFail_onward (by omega) within
            · intro _
              apply returns_delimited (by omega) within
              intro next later inText
              apply (calls.members inText (by omega) set.valid).mono
              intro reply final onwardReply
              exact onwardReply.behind (by omega)

/-- `ten__json_parse_value`, from what it calls. -/
theorem value_onward (stops : ∀ rest, strtodEnd rest ≤ rest.length) (inside : cursor ≤ text.length)
    (enough : 2 * (text.length - cursor) + 1 ≤ steps + 1) :
    Returns (Cursor.tenJsonParseValue (D := D) text strtodEnd (steps + 1) cursor) grants world
      (ValueOnward text cursor) := by
  rw [Cursor.tenJsonParseValue]
  obtain ⟨start, run, skipped, within⟩ := skipWs_eq inside
  rw [run, pure_bind]
  suffices onward : Returns _ grants world (ValueOnward text start) from
    onward.mono fun reply after call => Onward.behind call skipped
  apply returns_ite
  · intro _
    rw [returns_pure]
    exact onward_fail (Nat.le_refl _) within
  intro inFront
  have here := Nat.lt_of_not_le inFront
  rw [readAt_of_lt here, pure_bind]
  apply returns_ite
  · intro _
    exact parseLiteral_onward (by decide) (fun _ => tenJsonCreateNull_spec) within
  intro _
  apply returns_ite
  · intro _
    exact parseLiteral_onward (by decide) (fun _ => tenJsonCreateBool_spec 1) within
  intro _
  apply returns_ite
  · intro _
    exact parseLiteral_onward (by decide) (fun _ => tenJsonCreateBool_spec 0) within
  intro _
  apply returns_ite
  · intro _
    rw [returns_bind]
    apply (parseString_onward within).mono
    rintro ⟨string, after⟩ between call
    cases string with
    | none =>
        rw [returns_pure]
        exact onward_fail call.onward call.inside
    | some string =>
        exact created_onward (tenJsonAlloc_spec _) (call.success string rfl).1 call.inside
  intro _
  apply returns_ite
  · intro _
    rw [returns_bind]
    apply Returns.mono tenJsonCreateArray_spec
    rintro reply between (⟨rfl, -⟩ | ⟨json, rfl, list, rfl, -⟩)
    · rw [returns_pure]
      exact onward_fail (Nat.le_refl _) within
    · apply returns_opened here
      intro next later inText
      apply (calls.elements inText (by omega)).mono
      intro reply after call
      exact Onward.behind call (Nat.le_of_lt later)
  intro _
  apply returns_ite
  · intro _
    rw [returns_bind]
    apply tenJsonCreateObject_spec.mono
    rintro reply between ⟨-, ⟨rfl, -⟩ | ⟨object, rfl, valid, -⟩⟩
    · rw [returns_pure]
      exact onward_fail (Nat.le_refl _) within
    · apply returns_opened here
      intro next later inText
      apply (calls.members inText (by omega) valid).mono
      intro reply after call
      exact Onward.behind call (Nat.le_of_lt later)
  intro _
  apply returns_ite
  · intro _
    exact parseNumber_onward stops within
  · intro _
    rw [returns_pure]
    exact onward_fail (Nat.le_refl _) within

end Steps

/-- The calls end with any number of steps that is enough for the text that is
left. -/
theorem cursorAt (stops : ∀ rest, strtodEnd rest ≤ rest.length) (steps : Nat) :
    CursorAt D text strtodEnd grants steps := by
  induction steps with
  | zero =>
      constructor
      · intro world cursor inside enough
        omega
      · intro world cursor list inside enough
        omega
      · intro world cursor object inside enough
        omega
  | succ steps inductionHypothesis =>
      constructor
      · intro world cursor inside enough
        exact value_onward inductionHypothesis stops inside enough
      · intro world cursor list inside enough
        exact elements_onward inductionHypothesis inside enough
      · intro world cursor object inside enough valid
        exact members_onward inductionHypothesis inside enough valid

/-- `ten_json_parse` ends on every text. -/
theorem parse_ends (stops : ∀ rest, strtodEnd rest ≤ rest.length) (text : Option CString)
    (world : World) :
    Returns (Cursor.tenJsonParse (D := D) strtodEnd text) grants world (fun _ _ => True) := by
  cases text with
  | none =>
      simp only [Cursor.tenJsonParse, returns_bind, returns_tenSetError, returns_pure]
  | some text =>
      rw [Cursor.tenJsonParse, returns_bind]
      apply ((cursorAt stops _).value (Nat.zero_le _) (by omega)).mono
      rintro ⟨value, cursor⟩ between call
      cases value with
      | none => simp only [returns_bind, returns_tenSetError, returns_pure]
      | some json =>
          obtain ⟨after, run, -⟩ := skipWs_seen text.bytes cursor
          simp only [run, pure_bind]
          apply returns_ite
          · intro _
            rw [returns_bind]
            apply (tenJsonDestroy_spec json).mono
            intro _ last _
            simp only [returns_bind, returns_tenSetError, returns_pure]
          · intro _
            simp only [returns_bind, returns_tenSetError, returns_pure]

end Values

/-- Throughout a parse of a text, no byte is read at its end or behind it, and the
cursor moves neither back nor beyond the end, since a run in which one of these
happened would not return.  A call for a string or for a value, from any place of
the text, ends inside the text and not in front of where it started, and has moved
the cursor on if it succeeds. -/
theorem cursor_discipline {D : Type} [CDouble D] {strtodEnd : Bytes → Nat}
    (stops : ∀ rest, strtodEnd rest ≤ rest.length) (text : CString) (grants : Schedule)
    (world : World) :
    Returns (Cursor.tenJsonParse (D := D) strtodEnd (some text)) grants world
        (fun _ _ => True) ∧
      (∀ cursor, cursor ≤ text.length →
        Returns (Cursor.tenJsonParseString text.bytes cursor) grants world (fun reply _ =>
          cursor ≤ reply.2 ∧ reply.2 ≤ text.length ∧
            (reply.1.isSome = true → cursor < reply.2))) ∧
      (∀ steps cursor, cursor ≤ text.length → 2 * (text.length - cursor) + 1 ≤ steps →
        Returns (Cursor.tenJsonParseValue (D := D) text.bytes strtodEnd steps cursor) grants world
          (fun reply _ => cursor ≤ reply.2 ∧ reply.2 ≤ text.length ∧
            (reply.1.isSome = true → cursor < reply.2))) := by
  refine ⟨parse_ends stops _ world, ?_, ?_⟩
  · intro cursor inside
    apply (parseString_onward inside).mono
    rintro ⟨string, after⟩ last call
    refine ⟨call.onward, call.inside, ?_⟩
    intro succeeded
    obtain ⟨out, same⟩ := Option.isSome_iff_exists.mp succeeded
    exact (call.success out same).1
  · intro steps cursor inside enough
    apply ((cursorAt stops steps).value inside enough).mono
    rintro ⟨json, after⟩ last call
    refine ⟨call.onward, call.inside, ?_⟩
    intro succeeded
    obtain ⟨value, same⟩ := Option.isSome_iff_exists.mp succeeded
    exact (call.success value same).1

theorem strtodLen_le (rest : Bytes) : strtodLen rest ≤ rest.length :=
  Nat.findGreatest_le _

/-- A text that ends inside the escape of a second surrogate. -/
def cutEscape : CString :=
  ⟨asciiBytes ['[', '-', '1', ',', '"', '\\', 'u', 'd', '8', '3', 'd', '\\', 'u'], by decide⟩

theorem cursor_discipline_cutEscape :
    Returns (Cursor.tenJsonParse (D := Int) strtodLen (some cutEscape)) (fun _ => true) default
        (fun _ _ => True) ∧
      (∀ cursor, cursor ≤ cutEscape.length →
        Returns (Cursor.tenJsonParseString cutEscape.bytes cursor) (fun _ => true) default
          (fun reply _ => cursor ≤ reply.2 ∧ reply.2 ≤ cutEscape.length ∧
            (reply.1.isSome = true → cursor < reply.2))) ∧
      (∀ steps cursor, cursor ≤ cutEscape.length →
        2 * (cutEscape.length - cursor) + 1 ≤ steps →
        Returns (Cursor.tenJsonParseValue (D := Int) cutEscape.bytes strtodLen steps cursor)
          (fun _ => true) default (fun reply _ => cursor ≤ reply.2 ∧
            reply.2 ≤ cutEscape.length ∧ (reply.1.isSome = true → cursor < reply.2))) :=
  cursor_discipline strtodLen_le cutEscape (fun _ => true) default

end Dotten
