/-
Module: Dotten.Memory.OwnedJsonParser
Layer: Memory
Purpose: The parser of json.c with the blocks that it allocates.  Where it gives
  up, it destroys what it has built so far; what it returns is what the parser of
  the plain values returns.
Imports: Dotten.Memory.OwnedJsonForget, Dotten.Json.TenJsonParser
Main exports: Heap.tenJsonParseString, Heap.tenJsonParseValue,
  Heap.tenJsonParseElements, Heap.tenJsonParseMembers, Heap.tenJsonParse,
  Heap.keeps_tenJsonParseString, Heap.keeps_tenJsonParseValue,
  Heap.keeps_tenJsonParse
-/
import Dotten.Memory.OwnedJsonForget
import Dotten.Json.TenJsonParser

namespace Dotten

open Dotten.Library

namespace Heap

section Functions

/-- The loop of `ten__json_parse_string`. -/
def tenJsonParseChars : Nat → OwnedString → Bytes → Op (Option (OwnedString × Bytes))
  | 0, _, _ => stuck
  | steps + 1, out, p =>
      match p with
      | [] => do
          tenStringDestroy (some out)
          return none
      | c :: rest =>
          if c = ascii '"' then return some (out, rest)
          else
            match tenJsonStringItem p with
            | none => do
                tenStringDestroy (some out)
                return none
            | some (buf, p) => do
                let (_, out) ← tenStringAppend out (CString.ofMemory (buf ++ [0]))
                tenJsonParseChars steps out p

/-- `ten__json_parse_string`. -/
def tenJsonParseString (p : Bytes) : Op (Option (OwnedString × Bytes)) :=
  match p with
  | [] => return none
  | c :: p =>
      if c ≠ ascii '"' then return none
      else do
        let some out ← tenStringEmpty
          | return none
        tenJsonParseChars (p.length + 1) out p

variable {D : Type} [CDouble D]

/-- `ten__json_parse_number`. -/
def tenJsonParseNumber (p : Bytes) : Op (Option (OwnedJson D × Bytes)) :=
  let length := strtodLen p
  if length = 0 then return none
  else do
    let some json ← tenJsonCreateNumber (CDouble.strtod (p.take length) : D)
      | return none
    return some (json, p.drop length)

/-- A literal name: `memcmp` against the text, then the constructor. -/
def tenJsonParseLiteral (literal : Bytes) (create : Op (Option (OwnedJson D))) (p : Bytes) :
    Op (Option (OwnedJson D × Bytes)) :=
  if literal.length ≤ p.length ∧ p.take literal.length = literal then do
    let some json ← create
      | return none
    return some (json, p.drop literal.length)
  else return none

/-- The paths on which a value is destroyed and NULL returned. -/
def destroyAndFail (json : OwnedJson D) : Op (Option (OwnedJson D × Bytes)) := do
  tenJsonDestroy (some json)
  return none

mutual

/-- `ten__json_parse_value`. -/
def tenJsonParseValue : Nat → Bytes → Op (Option (OwnedJson D × Bytes))
  | 0, _ => stuck
  | steps + 1, p =>
      match tenJsonSkipWs p with
      | [] => return none
      | c :: rest =>
          let p := c :: rest
          if c = ascii 'n' then
            tenJsonParseLiteral (asciiBytes ['n', 'u', 'l', 'l']) tenJsonCreateNull p
          else if c = ascii 't' then
            tenJsonParseLiteral (asciiBytes ['t', 'r', 'u', 'e']) (tenJsonCreateBool 1) p
          else if c = ascii 'f' then
            tenJsonParseLiteral (asciiBytes ['f', 'a', 'l', 's', 'e']) (tenJsonCreateBool 0) p
          else if c = ascii '"' then do
            let some (s, p) ← tenJsonParseString p
              | return none
            let some json ← tenJsonAlloc (.string · s)
              | do
                tenStringDestroy (some s)
                return none
            return some (json, p)
          else if c = ascii '[' then do
            let some arr ← tenJsonCreateArray
              | return none
            let p := tenJsonSkipWs rest
            match p with
            | c :: rest =>
                if c = ascii ']' then return some (arr, rest)
                else tenJsonParseElements steps arr p
            | [] => tenJsonParseElements steps arr p
          else if c = ascii '{' then do
            let some obj ← tenJsonCreateObject
              | return none
            let p := tenJsonSkipWs rest
            match p with
            | c :: rest =>
                if c = ascii '}' then return some (obj, rest)
                else tenJsonParseMembers steps obj p
            | [] => tenJsonParseMembers steps obj p
          else if c = ascii '-' ∨ (isDigit c = true) then tenJsonParseNumber p
          else return none

/-- The loop over the elements of an array. -/
def tenJsonParseElements : Nat → OwnedJson D → Bytes → Op (Option (OwnedJson D × Bytes))
  | 0, _, _ => stuck
  | steps + 1, arr, p => do
      let some (element, p) ← tenJsonParseValue steps p
        | destroyAndFail arr
      let (rc, arr) ← tenJsonArrayAdd arr (some element)
      if rc ≠ .ok then
        tenJsonDestroy (some element)
        destroyAndFail arr
      else
        match tenJsonSkipWs p with
        | [] => destroyAndFail arr
        | c :: p =>
            if c = ascii ',' then tenJsonParseElements steps arr p
            else if c = ascii ']' then return some (arr, p)
            else destroyAndFail arr

/-- The loop over the members of an object. -/
def tenJsonParseMembers : Nat → OwnedJson D → Bytes → Op (Option (OwnedJson D × Bytes))
  | 0, _, _ => stuck
  | steps + 1, obj, p => do
      let some (key, p) ← tenJsonParseString (tenJsonSkipWs p)
        | destroyAndFail obj
      match tenJsonSkipWs p with
      | [] => do
          tenStringDestroy (some key)
          destroyAndFail obj
      | c :: p =>
          if c ≠ ascii ':' then do
            tenStringDestroy (some key)
            destroyAndFail obj
          else do
            let some (value, p) ← tenJsonParseValue steps p
              | do
                tenStringDestroy (some key)
                destroyAndFail obj
            match obj with
            | .object self object =>
                let (rc, object) ← tenJsonObjectSetOwned object key value
                let obj := .object self object
                if rc ≠ .ok then
                  tenJsonDestroy (some value)
                  destroyAndFail obj
                else
                  match tenJsonSkipWs p with
                  | [] => destroyAndFail obj
                  | c :: p =>
                      if c = ascii ',' then tenJsonParseMembers steps obj p
                      else if c = ascii '}' then return some (obj, p)
                      else destroyAndFail obj
            | _ => stuck

end

/-- `ten_json_parse`. -/
def tenJsonParse (text : Option CString) : Op (Option (OwnedJson D)) :=
  match text with
  | none => do
      tenSetError .nullArgument
      return none
  | some text => do
      match ← tenJsonParseValue (2 * text.bytes.length + 1) text.bytes with
      | none =>
          tenSetError .parse
          return none
      | some (result, p) =>
          if tenJsonSkipWs p ≠ [] then
            tenJsonDestroy (some result)
            tenSetError .parse
            return none
          else
            tenSetError .ok
            return some result

end Functions

section Forgetting

/-- A parsed string as the parser of plain strings returns it. -/
abbrev seenString : Option (OwnedString × Bytes) → Option (TenString × Bytes) :=
  Option.map (Prod.map OwnedString.string id)

theorem keeps_tenJsonParseChars (steps : Nat) (out : OwnedString) (p : Bytes) :
    Keeps seenString (tenJsonParseChars steps out p)
      (Dotten.tenJsonParseChars steps out.string p) := by
  induction steps generalizing out p with
  | zero => exact keeps_stuck _ _
  | succ steps inductionHypothesis =>
      unfold tenJsonParseChars Dotten.tenJsonParseChars
      cases p with
      | nil => exact Simulates.skip (unseen_tenStringDestroy _) fun _ => Simulates.pure rfl
      | cons c rest =>
          refine Simulates.ite (fun _ => Simulates.pure rfl) fun _ => ?_
          cases tenJsonStringItem (c :: rest) with
          | none => exact Simulates.skip (unseen_tenStringDestroy _) fun _ => Simulates.pure rfl
          | some item =>
              refine Erases.bind (keeps_tenStringAppend out _) ?_
              rintro ⟨rc, out⟩
              exact inductionHypothesis out item.2

theorem keeps_tenJsonParseString (p : Bytes) :
    Keeps seenString (tenJsonParseString p) (Dotten.tenJsonParseString p) := by
  cases p with
  | nil => exact Simulates.pure rfl
  | cons c p =>
      refine Simulates.ite (fun _ => Simulates.pure rfl) fun _ => ?_
      refine Erases.bind keeps_tenStringEmpty ?_
      rintro (_ | out)
      · exact Simulates.pure rfl
      · exact keeps_tenJsonParseChars _ out p

variable {D : Type}

/-- A parsed value as the parser of plain values returns it. -/
abbrev seenValue : Option (OwnedJson D × Bytes) → Option (JsonNode D × Bytes) :=
  Option.map (Prod.map OwnedJson.forget id)

theorem keeps_destroyAndFail (json : OwnedJson D) :
    Keeps seenValue (destroyAndFail json) (Dotten.destroyAndFail json.forget) :=
  Erases.bind (keeps_tenJsonDestroy _) fun _ => Simulates.pure rfl

theorem keeps_tenJsonParseLiteral {literal : Bytes} {create : Op (Option (OwnedJson D))}
    {plain : Ten (Option (JsonNode D))}
    (keeps : Keeps (Option.map OwnedJson.forget) create plain) (p : Bytes) :
    Keeps seenValue (tenJsonParseLiteral literal create p)
      (Dotten.tenJsonParseLiteral literal plain p) := by
  refine Simulates.ite (fun _ => ?_) fun _ => Simulates.pure rfl
  refine Erases.bind keeps ?_
  rintro (_ | json)
  · exact Simulates.pure rfl
  · exact Simulates.pure rfl

variable [CDouble D]

theorem keeps_tenJsonParseNumber (p : Bytes) :
    Keeps (seenValue (D := D)) (tenJsonParseNumber p) (Dotten.tenJsonParseNumber p) := by
  refine Simulates.ite (fun _ => Simulates.pure rfl) fun _ => ?_
  refine Erases.bind (keeps_tenJsonCreateNumber _) ?_
  rintro (_ | json)
  · exact Simulates.pure rfl
  · exact Simulates.pure rfl

/-- What the three functions do with this many steps is what those of the plain
parser do. -/
structure KeepsAt (D : Type) [CDouble D] (steps : Nat) : Prop where
  value : ∀ p, Keeps (seenValue (D := D)) (tenJsonParseValue steps p)
    (Dotten.tenJsonParseValue steps p)
  elements : ∀ (arr : OwnedJson D) p, Keeps seenValue (tenJsonParseElements steps arr p)
    (Dotten.tenJsonParseElements steps arr.forget p)
  members : ∀ (obj : OwnedJson D) p, Keeps seenValue (tenJsonParseMembers steps obj p)
    (Dotten.tenJsonParseMembers steps obj.forget p)

omit [CDouble D] in
/-- Behind an item the loop goes on, or ends, or gives up. -/
theorem keeps_continued {closing : Byte} {json : OwnedJson D} {p : Bytes}
    {more : Bytes → Op (Option (OwnedJson D × Bytes))}
    {plain : Bytes → Ten (Option (JsonNode D × Bytes))}
    (onComma : ∀ p, Keeps seenValue (more p) (plain p)) :
    Keeps seenValue
      (match p with
        | [] => destroyAndFail json
        | c :: p =>
            if c = ascii ',' then more p
            else if c = closing then return some (json, p)
            else destroyAndFail json)
      (match p with
        | [] => Dotten.destroyAndFail json.forget
        | c :: p =>
            if c = ascii ',' then plain p
            else if c = closing then return some (json.forget, p)
            else Dotten.destroyAndFail json.forget) := by
  cases p with
  | nil => exact keeps_destroyAndFail json
  | cons c p =>
      exact Simulates.ite (fun _ => onComma p) fun _ =>
        Simulates.ite (fun _ => Simulates.pure rfl) fun _ => keeps_destroyAndFail json

omit [CDouble D] in
/-- Behind an opening bracket stands the closing one, or the first item. -/
theorem keeps_opened {closing : Byte} {json : OwnedJson D} {p : Bytes}
    {items : Bytes → Op (Option (OwnedJson D × Bytes))}
    {plain : Bytes → Ten (Option (JsonNode D × Bytes))}
    (onItem : ∀ p, Keeps seenValue (items p) (plain p)) :
    Keeps seenValue
      (match p with
        | c :: rest => if c = closing then return some (json, rest) else items p
        | [] => items p)
      (match p with
        | c :: rest => if c = closing then return some (json.forget, rest) else plain p
        | [] => plain p) := by
  cases p with
  | nil => exact onItem []
  | cons c p => exact Simulates.ite (fun _ => Simulates.pure rfl) fun _ => onItem _

theorem keepsAt_elements {steps : Nat} (keeps : KeepsAt D steps) (arr : OwnedJson D) (p : Bytes) :
    Keeps seenValue (tenJsonParseElements (steps + 1) arr p)
      (Dotten.tenJsonParseElements (steps + 1) arr.forget p) := by
  refine Erases.bind (keeps.value p) ?_
  rintro (_ | ⟨element, p⟩)
  · exact keeps_destroyAndFail arr
  refine Erases.bind (keeps_tenJsonArrayAdd arr (some element)) ?_
  rintro ⟨rc, arr⟩
  refine Simulates.ite (fun _ => ?_) fun _ => ?_
  · exact Erases.bind (keeps_tenJsonDestroy _) fun _ => keeps_destroyAndFail arr
  · exact keeps_continued fun p => keeps.elements arr p

theorem keepsAt_members {steps : Nat} (keeps : KeepsAt D steps) (obj : OwnedJson D) (p : Bytes) :
    Keeps seenValue (tenJsonParseMembers (steps + 1) obj p)
      (Dotten.tenJsonParseMembers (steps + 1) obj.forget p) := by
  refine Erases.bind (keeps_tenJsonParseString _) ?_
  rintro (_ | ⟨key, p⟩)
  · exact keeps_destroyAndFail obj
  dsimp only [seenString, Option.map_some, Prod.map_apply, id]
  have failed : Keeps (seenValue (D := D))
      (do
        tenStringDestroy (some key)
        destroyAndFail obj)
      (Dotten.destroyAndFail obj.forget) :=
    Simulates.skip (unseen_tenStringDestroy _) fun _ => keeps_destroyAndFail obj
  cases tenJsonSkipWs p with
  | nil => exact failed
  | cons c p =>
      refine Simulates.ite (fun _ => failed) fun _ => ?_
      refine Erases.bind (keeps.value p) ?_
      rintro (_ | ⟨value, p⟩)
      · exact failed
      cases obj with
      | object self object =>
          rw [OwnedJson.forget_object]
          refine Erases.bind (keeps_tenJsonObjectSetOwned object key value) ?_
          rintro ⟨rc, object⟩
          refine Simulates.ite (fun _ => ?_) fun _ => ?_
          · refine Erases.bind (keeps_tenJsonDestroy _) fun _ => ?_
            dsimp only [Prod.map]
            rw [← OwnedJson.forget_object self object]
            exact keeps_destroyAndFail _
          · have seen : JsonNode.object (object.forget OwnedJson.forget) =
                (OwnedJson.object self object).forget := (OwnedJson.forget_object _ _).symm
            dsimp only [Prod.map]
            rw [seen]
            exact keeps_continued fun p => keeps.members _ p
      | null => exact keeps_stuck _ _
      | boolean => exact keeps_stuck _ _
      | number => exact keeps_stuck _ _
      | string => exact keeps_stuck _ _
      | array => exact keeps_stuck _ _

theorem keepsAt_value {steps : Nat} (keeps : KeepsAt D steps) (p : Bytes) :
    Keeps (seenValue (D := D)) (tenJsonParseValue (steps + 1) p)
      (Dotten.tenJsonParseValue (steps + 1) p) := by
  unfold tenJsonParseValue Dotten.tenJsonParseValue
  cases tenJsonSkipWs p with
  | nil => exact Simulates.pure rfl
  | cons c rest =>
      refine Simulates.ite (fun _ => keeps_tenJsonParseLiteral keeps_tenJsonCreateNull _) fun _ => ?_
      refine Simulates.ite (fun _ => keeps_tenJsonParseLiteral (keeps_tenJsonCreateBool _) _)
        fun _ => ?_
      refine Simulates.ite (fun _ => keeps_tenJsonParseLiteral (keeps_tenJsonCreateBool _) _)
        fun _ => ?_
      refine Simulates.ite (fun _ => ?_) fun _ => ?_
      · refine Erases.bind (keeps_tenJsonParseString _) ?_
        rintro (_ | ⟨string, p⟩)
        · exact Simulates.pure rfl
        refine Erases.bind (keeps_tenJsonAlloc fun _ => rfl) ?_
        rintro (_ | json)
        · exact Simulates.skip (unseen_tenStringDestroy _) fun _ => Simulates.pure rfl
        · exact Simulates.pure rfl
      refine Simulates.ite (fun _ => ?_) fun _ => ?_
      · refine Erases.bind keeps_tenJsonCreateArray ?_
        rintro (_ | arr)
        · exact Simulates.pure rfl
        · exact keeps_opened fun p => keeps.elements arr p
      refine Simulates.ite (fun _ => ?_) fun _ => ?_
      · refine Erases.bind keeps_tenJsonCreateObject ?_
        rintro (_ | obj)
        · exact Simulates.pure rfl
        · exact keeps_opened fun p => keeps.members obj p
      exact Simulates.ite (fun _ => keeps_tenJsonParseNumber _) fun _ => Simulates.pure rfl

theorem keepsAt (steps : Nat) : KeepsAt D steps := by
  induction steps with
  | zero =>
      exact ⟨fun _ => keeps_stuck _ _, fun _ _ => keeps_stuck _ _, fun _ _ => keeps_stuck _ _⟩
  | succ steps inductionHypothesis =>
      exact ⟨keepsAt_value inductionHypothesis, keepsAt_elements inductionHypothesis,
        keepsAt_members inductionHypothesis⟩

theorem keeps_tenJsonParse (text : Option CString) :
    Keeps (Option.map OwnedJson.forget) (tenJsonParse (D := D) text)
      (Dotten.tenJsonParse text) := by
  cases text with
  | none => exact Erases.bind (keeps_tenSetError _) fun _ => Simulates.pure rfl
  | some text =>
      refine Erases.bind ((keepsAt _).value text.bytes) ?_
      rintro (_ | ⟨result, p⟩)
      · exact Erases.bind (keeps_tenSetError _) fun _ => Simulates.pure rfl
      · refine Simulates.ite (fun _ => ?_) fun _ => ?_
        · exact Erases.bind (keeps_tenJsonDestroy _) fun _ =>
            Erases.bind (keeps_tenSetError _) fun _ => Simulates.pure rfl
        · exact Erases.bind (keeps_tenSetError _) fun _ => Simulates.pure rfl

end Forgetting

end Heap

end Dotten
