/-
Module: Dotten.Json.JsonCursorSuffix
Layer: Json
Purpose: The parser over the cursor and the parser over the text that is left
  compute the same, whatever the allocator answers.
Imports: Dotten.Json.JsonCursor
Main exports: seen_parseString, SuffixAt, suffixAt, tenJsonParse_cursor
-/
import Dotten.Json.JsonCursor

namespace Dotten

open Dotten.Library

section Composition

variable {α γ : Type} {text : Bytes}

/-- Two programs that see the same go on alike. -/
theorem seen_bind {P : Ten (Option α × Nat)} {Q : Ten (Option (α × Bytes))}
    {f : Option α × Nat → Ten (Option γ × Nat)} {g : Option (α × Bytes) → Ten (Option (γ × Bytes))}
    (same : seen text <$> P = Q) (each : ∀ reply, seen text <$> f reply = g (seen text reply)) :
    seen text <$> (P >>= f) = Q >>= g := by
  rw [← same, map_bind, bind_map_left]
  exact congrArg (P >>= ·) (funext each)

/-- The same call in front of both. -/
theorem seen_bind_call {P : Ten α} {f : α → Ten (Option γ × Nat)} {g : α → Ten (Option (γ × Bytes))}
    (each : ∀ a, seen text <$> f a = g a) : seen text <$> (P >>= f) = P >>= g := by
  rw [map_bind]
  exact congrArg (P >>= ·) (funext each)

theorem seen_ite {condition : Prop} [Decidable condition] {yes no : Ten (Option α × Nat)}
    {yes' no' : Ten (Option (α × Bytes))} (ofYes : condition → seen text <$> yes = yes')
    (ofNo : ¬ condition → seen text <$> no = no') :
    seen text <$> (if condition then yes else no) = if condition then yes' else no' := by
  split_ifs with holds
  · exact ofYes holds
  · exact ofNo holds

theorem seen_fail (cursor : Nat) :
    seen text <$> (pure (none, cursor) : Ten (Option α × Nat)) = pure none := by
  rw [map_pure, seen_none]

theorem seen_done (a : α) (cursor : Nat) :
    seen text <$> (pure (some a, cursor) : Ten (Option α × Nat)) =
      pure (some (a, text.drop cursor)) := by
  rw [map_pure, seen_some]

end Composition

section Strings

variable {text : Bytes}

theorem seen_parseChars (passes : Nat) :
    ∀ (cursor : Nat) (out : TenString), seen text <$> Cursor.parseChars text passes out cursor =
      tenJsonParseChars passes out (text.drop cursor) := by
  induction passes with
  | zero =>
      intro cursor out
      rfl
  | succ passes inductionHypothesis =>
      intro cursor out
      rw [Cursor.parseChars]
      cases rest : text.drop cursor with
      | nil =>
          have beyond : text.length ≤ cursor := List.drop_eq_nil_iff.mp rest
          rw [if_neg (Nat.not_lt.mpr beyond), closeString_end beyond, seen_fail]
          rfl
      | cons c tail =>
          have length := length_of_drop rest
          rw [if_pos (by omega), readAt_of_drop rest, pure_bind, tenJsonParseChars]
          by_cases quote : c = ascii '"'
          · subst quote
            rw [if_neg (not_not.mpr rfl), if_pos rfl, closeString_quote rest, seen_done,
              drop_succ_of_drop rest]
          · obtain ⟨⟨buf, after⟩, run, -, same⟩ := stringItem_eq rest
            rw [if_pos quote, if_neg quote, run, pure_bind, ← same]
            cases buf with
            | none => exact seen_fail after
            | some buf =>
                apply seen_bind_call
                intro reply
                exact inductionHypothesis after reply.2

theorem seen_parseString (cursor : Nat) :
    seen text <$> Cursor.tenJsonParseString text cursor =
      tenJsonParseString (text.drop cursor) := by
  rw [Cursor.tenJsonParseString]
  cases rest : text.drop cursor with
  | nil =>
      have beyond : text.length ≤ cursor := List.drop_eq_nil_iff.mp rest
      rw [if_pos beyond, seen_fail]
      rfl
  | cons c tail =>
      have length := length_of_drop rest
      rw [if_neg (by omega), readAt_of_drop rest, pure_bind, tenJsonParseString]
      apply seen_ite
      · intro _
        exact seen_fail cursor
      · intro _
        rw [moveTo_eq (Nat.le_succ _) (by omega), pure_bind]
        apply seen_bind_call
        intro reply
        cases reply with
        | none => exact seen_fail (cursor + 1)
        | some out =>
            rw [← drop_succ_of_drop rest, List.length_drop]
            exact seen_parseChars _ (cursor + 1) out

end Strings

section Values

variable {D : Type} [CDouble D] {text : Bytes}

omit [CDouble D] in
/-- A value that is created where the cursor stands. -/
theorem seen_create (create : Ten (Option (JsonNode D))) (cursor : Nat) :
    seen text <$> (do
        let json ← create
        return (json, cursor) : Ten (Option (JsonNode D) × Nat)) = (do
      let some json ← create
        | return none
      return some (json, text.drop cursor)) := by
  apply seen_bind_call
  intro json
  cases json with
  | none => exact seen_fail cursor
  | some json => exact seen_done json cursor

omit [CDouble D] in
theorem seen_parseLiteral {literal : Bytes} (nonempty : 0 < literal.length)
    (create : Ten (Option (JsonNode D))) (cursor : Nat) :
    seen text <$> Cursor.parseLiteral text literal create cursor =
      tenJsonParseLiteral literal create (text.drop cursor) := by
  rw [Cursor.parseLiteral, tenJsonParseLiteral, List.length_drop]
  by_cases enough : text.length - cursor ≥ literal.length
  · rw [if_pos enough, matchAt_eq (by omega), pure_bind]
    by_cases same : (text.drop cursor).take literal.length = literal
    · rw [if_pos (decide_eq_true same), if_pos ⟨enough, same⟩,
        moveTo_eq (Nat.le_add_right _ _) (by omega), pure_bind, List.drop_drop]
      exact seen_create create _
    · rw [if_neg (by rw [decide_eq_false same]; exact Bool.false_ne_true),
        if_neg (fun both => same both.2), seen_fail]
  · rw [if_neg enough, if_neg (fun both => enough both.1), seen_fail]

theorem seen_parseNumber (cursor : Nat) :
    seen text <$> Cursor.tenJsonParseNumber (D := D) text strtodLen cursor =
      tenJsonParseNumber (text.drop cursor) := by
  have within := strtodLen_le (text.drop cursor)
  rw [List.length_drop] at within
  rw [Cursor.tenJsonParseNumber, tenJsonParseNumber]
  apply seen_ite
  · intro _
    exact seen_fail cursor
  · intro converted
    dsimp only
    rw [moveTo_eq (Nat.le_add_right _ _) (by omega), pure_bind, List.drop_drop]
    exact seen_create _ _

omit [CDouble D] in
theorem seen_destroyAndFail (json : JsonNode D) (cursor : Nat) :
    seen text <$> Cursor.destroyAndFail json cursor = destroyAndFail json := by
  apply seen_bind_call
  intro _
  exact seen_fail cursor

omit [CDouble D] in
/-- What comes behind an item. -/
theorem seen_delimited (closing : Byte) (json : JsonNode D) (after : Nat)
    {more : Nat → Ten (Option (JsonNode D) × Nat)}
    {moreSuffix : Bytes → Ten (Option (JsonNode D × Bytes))}
    (same : ∀ cursor, seen text <$> more cursor = moreSuffix (text.drop cursor)) :
    seen text <$> (do
        let cursor ← Cursor.tenJsonSkipWs text after
        if cursor ≥ text.length then
          Cursor.destroyAndFail json cursor
        else
          let c ← readAt text cursor
          if c = ascii ',' then
            let cursor ← moveTo text.length cursor (cursor + 1)
            more cursor
          else if c = closing then
            let cursor ← moveTo text.length cursor (cursor + 1)
            return (some json, cursor)
          else
            Cursor.destroyAndFail json cursor : Ten (Option (JsonNode D) × Nat)) =
      match tenJsonSkipWs (text.drop after) with
      | [] => destroyAndFail json
      | c :: tail =>
          if c = ascii ',' then moreSuffix tail
          else if c = closing then pure (some (json, tail))
          else destroyAndFail json := by
  obtain ⟨cursor, run, -, -, left⟩ := skipWs_seen text after
  rw [run, pure_bind, ← left]
  cases rest : text.drop cursor with
  | nil =>
      rw [if_pos (List.drop_eq_nil_iff.mp rest), seen_destroyAndFail]
  | cons c tail =>
      have length := length_of_drop rest
      rw [if_neg (by omega), readAt_of_drop rest, pure_bind]
      dsimp only
      apply seen_ite
      · intro _
        rw [moveTo_eq (Nat.le_succ _) (by omega), pure_bind, same, drop_succ_of_drop rest]
      · intro _
        apply seen_ite
        · intro _
          rw [moveTo_eq (Nat.le_succ _) (by omega), pure_bind, seen_done, drop_succ_of_drop rest]
        · intro _
          exact seen_destroyAndFail json cursor

omit [CDouble D] in
/-- What comes behind an opening bracket. -/
theorem seen_opened (closing : Byte) (json : JsonNode D) {start : Nat} {c : Byte} {tail : Bytes}
    (rest : text.drop start = c :: tail) {loop : Nat → Ten (Option (JsonNode D) × Nat)}
    {loopSuffix : Bytes → Ten (Option (JsonNode D × Bytes))}
    (same : ∀ cursor, seen text <$> loop cursor = loopSuffix (text.drop cursor)) :
    seen text <$> (do
        let cursor ← moveTo text.length start (start + 1)
        let cursor ← Cursor.tenJsonSkipWs text cursor
        let closed ← Cursor.standsAt text closing cursor
        if closed then
          let cursor ← moveTo text.length cursor (cursor + 1)
          return (some json, cursor)
        else
          loop cursor : Ten (Option (JsonNode D) × Nat)) =
      match tenJsonSkipWs tail with
      | c :: rest =>
          if c = closing then pure (some (json, rest))
          else loopSuffix (tenJsonSkipWs tail)
      | [] => loopSuffix (tenJsonSkipWs tail) := by
  have length := length_of_drop rest
  obtain ⟨cursor, run, -, -, left⟩ := skipWs_seen text (start + 1)
  rw [drop_succ_of_drop rest] at left
  rw [moveTo_eq (Nat.le_succ _) (by omega), pure_bind, run, pure_bind, standsAt_eq, pure_bind,
    ← left]
  cases next : text.drop cursor with
  | nil =>
      change seen text <$> loop cursor = loopSuffix []
      rw [same, next]
  | cons d more =>
      have nextLength := length_of_drop next
      rw [List.head?_cons]
      by_cases closed : d = closing
      · rw [if_pos (decide_eq_true (congrArg some closed)),
          moveTo_eq (Nat.le_succ _) (by omega), pure_bind, seen_done, drop_succ_of_drop next]
        exact (if_pos closed).symm
      · have apart : decide (some d = some closing) = false :=
          decide_eq_false fun same => closed (Option.some.inj same)
        rw [apart, if_neg Bool.false_ne_true, same, next]
        exact (if_neg closed).symm

/-- With this many steps, the three functions do the same as those that know the
text that is left. -/
structure SuffixAt (D : Type) [CDouble D] (text : Bytes) (steps : Nat) : Prop where
  value : ∀ cursor, seen text <$> Cursor.tenJsonParseValue (D := D) text strtodLen steps cursor =
    tenJsonParseValue steps (text.drop cursor)
  elements : ∀ (arr : JsonNode D) (cursor : Nat),
    seen text <$> Cursor.parseElements text strtodLen steps arr cursor =
      tenJsonParseElements steps arr (text.drop cursor)
  members : ∀ (obj : JsonNode D) (cursor : Nat),
    seen text <$> Cursor.parseMembers text strtodLen steps obj cursor =
      tenJsonParseMembers steps obj (text.drop cursor)

section Steps

variable {steps : Nat} (same : SuffixAt D text steps)

include same

theorem seen_elements (arr : JsonNode D) (cursor : Nat) :
    seen text <$> Cursor.parseElements text strtodLen (steps + 1) arr cursor =
      tenJsonParseElements (steps + 1) arr (text.drop cursor) := by
  rw [Cursor.parseElements, tenJsonParseElements]
  apply seen_bind (same.value cursor)
  rintro ⟨element, after⟩
  cases element with
  | none => exact seen_destroyAndFail arr after
  | some json =>
      apply seen_bind_call
      rintro ⟨rc, array⟩
      apply seen_ite
      · intro _
        apply seen_bind_call
        intro _
        exact seen_destroyAndFail array after
      · intro _
        exact seen_delimited (ascii ']') array after (same.elements array)

theorem seen_members (obj : JsonNode D) (cursor : Nat) :
    seen text <$> Cursor.parseMembers text strtodLen (steps + 1) obj cursor =
      tenJsonParseMembers (steps + 1) obj (text.drop cursor) := by
  rw [Cursor.parseMembers, tenJsonParseMembers]
  obtain ⟨start, run, -, -, left⟩ := skipWs_seen text cursor
  rw [run, pure_bind, ← left]
  apply seen_bind (seen_parseString start)
  rintro ⟨key, afterKey⟩
  cases key with
  | none => exact seen_destroyAndFail obj afterKey
  | some key =>
      obtain ⟨atColon, runColon, -, -, leftColon⟩ := skipWs_seen text afterKey
      rw [seen_some]
      dsimp only
      rw [runColon, pure_bind, standsAt_eq, pure_bind, ← leftColon]
      cases rest : text.drop atColon with
      | nil => exact seen_destroyAndFail obj atColon
      | cons c tail =>
          have length := length_of_drop rest
          rw [List.head?_cons]
          by_cases colon : c = ascii ':'
          · rw [if_neg (not_not.mpr (decide_eq_true (congrArg some colon))),
              moveTo_eq (Nat.le_succ _) (by omega), pure_bind]
            dsimp only
            rw [if_neg (not_not.mpr colon), ← drop_succ_of_drop rest]
            apply seen_bind (same.value (atColon + 1))
            rintro ⟨value, after⟩
            cases value with
            | none => exact seen_destroyAndFail obj after
            | some json =>
                cases obj with
                | object object =>
                    apply seen_bind_call
                    rintro ⟨rc, object'⟩
                    apply seen_ite
                    · intro _
                      apply seen_bind_call
                      intro _
                      exact seen_destroyAndFail (.object object') after
                    · intro _
                      exact seen_delimited (ascii '}') (.object object') after
                        (same.members (.object object'))
                | null | boolean | number | string | array => rfl
          · have apart : decide (some c = some (ascii ':')) = false :=
              decide_eq_false fun same => colon (Option.some.inj same)
            rw [apart, if_pos Bool.false_ne_true, seen_destroyAndFail]
            exact (if_pos colon).symm

theorem seen_value (cursor : Nat) :
    seen text <$> Cursor.tenJsonParseValue (D := D) text strtodLen (steps + 1) cursor =
      tenJsonParseValue (steps + 1) (text.drop cursor) := by
  rw [Cursor.tenJsonParseValue, tenJsonParseValue]
  obtain ⟨start, run, -, -, left⟩ := skipWs_seen text cursor
  rw [run, pure_bind, ← left]
  cases rest : text.drop start with
  | nil =>
      rw [if_pos (List.drop_eq_nil_iff.mp rest), seen_fail]
  | cons c tail =>
      have length := length_of_drop rest
      rw [if_neg (by omega), readAt_of_drop rest, pure_bind]
      dsimp only
      apply seen_ite
      · intro _
        rw [← rest]
        exact seen_parseLiteral (by decide) _ start
      intro _
      apply seen_ite
      · intro _
        rw [← rest]
        exact seen_parseLiteral (by decide) _ start
      intro _
      apply seen_ite
      · intro _
        rw [← rest]
        exact seen_parseLiteral (by decide) _ start
      intro _
      apply seen_ite
      · intro _
        rw [← rest]
        apply seen_bind (seen_parseString start)
        rintro ⟨string, after⟩
        cases string with
        | none => exact seen_fail after
        | some string => exact seen_create (tenJsonAlloc (.string string)) after
      intro _
      apply seen_ite
      · intro _
        apply seen_bind_call
        intro arr
        cases arr with
        | none => exact seen_fail start
        | some arr => exact seen_opened (ascii ']') arr rest (same.elements arr)
      intro _
      apply seen_ite
      · intro _
        apply seen_bind_call
        intro obj
        cases obj with
        | none => exact seen_fail start
        | some obj => exact seen_opened (ascii '}') obj rest (same.members obj)
      intro _
      apply seen_ite
      · intro _
        rw [← rest]
        exact seen_parseNumber start
      · intro _
        exact seen_fail start

end Steps

theorem suffixAt (steps : Nat) : SuffixAt D text steps := by
  induction steps with
  | zero => exact ⟨fun _ => rfl, fun _ _ => rfl, fun _ _ => rfl⟩
  | succ steps inductionHypothesis =>
      exact ⟨seen_value inductionHypothesis, seen_elements inductionHypothesis,
        seen_members inductionHypothesis⟩

/-- With the `strtod` of the C library, the parser over the cursor is the parser
over the text that is left. -/
theorem tenJsonParse_cursor (text : Option CString) :
    Cursor.tenJsonParse (D := D) strtodLen text = tenJsonParse text := by
  cases text with
  | none => rfl
  | some text =>
      have same : SuffixAt D text.bytes (2 * text.bytes.length + 1) := suffixAt _
      have value := same.value 0
      rw [List.drop_zero] at value
      rw [Cursor.tenJsonParse, tenJsonParse, ← value, bind_map_left]
      funext grants world
      -- a cursor that a call leaves behind is inside the text
      obtain ⟨⟨reply, cursor⟩, between, run, onward⟩ :
          Returns (Cursor.tenJsonParseValue (D := D) text.bytes strtodLen
            (2 * text.bytes.length + 1) 0) grants world (ValueOnward text.bytes 0) :=
        (cursorAt strtodLen_le _).value (Nat.zero_le _) (Nat.le_refl _)
      change Option.bind _ _ = Option.bind _ _
      rw [run]
      cases reply with
      | none => rfl
      | some json =>
          obtain ⟨after, skip, -, within, left⟩ := skipWs_seen text.bytes cursor
          have ends : after ≠ text.bytes.length ↔ tenJsonSkipWs (text.bytes.drop cursor) ≠ [] := by
            rw [← left, ne_eq, ne_eq, List.drop_eq_nil_iff]
            have inside := within onward.inside
            omega
          simp only [Option.bind_some, seen_some, skip, pure_bind]
          by_cases more : after ≠ text.bytes.length
          · rw [if_pos more, if_pos (ends.mp more)]
          · rw [if_neg more, if_neg (ends.not.mp more)]

end Values

end Dotten
