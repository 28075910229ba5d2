/-
Module: Dotten.Json.TenJsonCursor
Layer: Json
Purpose: The parser of json.c with the cursor as the index it is, which it leaves
  behind also where it fails.  Every byte is read through an index, and
  `strtod` may be any function.
Imports: Dotten.Json.TenJsonParser, Dotten.Library.CursorMoves
Main exports: Cursor.tenJsonSkipWs, Cursor.tenJsonParseHex4,
  Cursor.tenJsonParseString, Cursor.tenJsonParseNumber,
  Cursor.tenJsonParseValue, Cursor.tenJsonParse
-/
import Dotten.Json.TenJsonParser
import Dotten.Library.CursorMoves

namespace Dotten

open Dotten.Library

namespace Cursor

variable (text : Bytes)

/-- The loop of `ten__json_skip_ws`, with a bound on its passes. -/
def skipLoop : Nat → Nat → Ten Nat
  | passes, cursor =>
      if cursor < text.length then
        match passes with
        | 0 => stuck
        | passes + 1 => do
            let c ← readAt text cursor
            if tenJsonIsWs c then
              let cursor ← moveTo text.length cursor (cursor + 1)
              skipLoop passes cursor
            else
              return cursor
      else
        return cursor

/-- `ten__json_skip_ws`. -/
def tenJsonSkipWs (cursor : Nat) : Ten Nat := skipLoop text (text.length - cursor) cursor

/-- `ten__json_parse_hex4`. -/
def tenJsonParseHex4 (s : Nat) : Ten (Option Nat) := do
  let s0 ← readAt text s
  let s1 ← readAt text (s + 1)
  let s2 ← readAt text (s + 2)
  let s3 ← readAt text (s + 3)
  return Dotten.tenJsonParseHex4 s0 s1 s2 s3

/-- The low surrogate of the escape at the cursor, unless one of the conditions
on it fails.  They are looked at one after another, up to the first that
fails. -/
def lowSurrogate (cursor : Nat) : Ten (Option Nat) :=
  if text.length - cursor < 6 then return none
  else do
    let b ← readAt text cursor
    if b ≠ ascii '\\' then
      return none
    else
      let u ← readAt text (cursor + 1)
      if u ≠ ascii 'u' then
        return none
      else
        let some low ← tenJsonParseHex4 text (cursor + 2)
          | return none
        return if low < 0xDC00 ∨ low > 0xDFFF then none else some low

/-- `case 'u'`: the buffer to append. -/
def unicodeEscape (cursor : Nat) : Ten (Option Bytes × Nat) := do
  let cursor ← moveTo text.length cursor (cursor + 1)
  if text.length - cursor < 4 then
    return (none, cursor)
  else
    let some cp ← tenJsonParseHex4 text cursor
      | return (none, cursor)
    let cursor ← moveTo text.length cursor (cursor + 4)
    if 0xD800 ≤ cp ∧ cp ≤ 0xDBFF then
      let some low ← lowSurrogate text cursor
        | return (none, cursor)
      let cursor ← moveTo text.length cursor (cursor + 6)
      return (some (tenJsonCodepointBytes (0x10000 + (cp - 0xD800) <<< 10 + (low - 0xDC00))),
        cursor)
    else
      return (some (tenJsonCodepointBytes cp), cursor)

/-- One pass of the loop of `ten__json_parse_string`: the buffer it appends. -/
def stringItem (cursor : Nat) : Ten (Option Bytes × Nat) := do
  let c ← readAt text cursor
  if c ≠ ascii '\\' then
    let cursor ← moveTo text.length cursor (cursor + 1)
    return (some [c], cursor)
  else
    let cursor ← moveTo text.length cursor (cursor + 1)
    if cursor ≥ text.length then
      return (none, cursor)
    else
      let c ← readAt text cursor
      match tenJsonSimpleEscape c with
      | some b =>
          let cursor ← moveTo text.length cursor (cursor + 1)
          return (some [b], cursor)
      | none => if c = ascii 'u' then unicodeEscape text cursor else return (none, cursor)

/-- What comes behind the loop. -/
def closeString (out : TenString) (cursor : Nat) : Ten (Option TenString × Nat) :=
  if cursor ≥ text.length then return (none, cursor)
  else do
    let c ← readAt text cursor
    if c ≠ ascii '"' then
      return (none, cursor)
    else
      let cursor ← moveTo text.length cursor (cursor + 1)
      return (some out, cursor)

/-- The loop of `ten__json_parse_string`, with a bound on its passes, and what
comes behind it. -/
def parseChars : Nat → TenString → Nat → Ten (Option TenString × Nat)
  | 0, _, _ => stuck
  | passes + 1, out, cursor =>
      if cursor < text.length then do
        let c ← readAt text cursor
        if c ≠ ascii '"' then
          match ← stringItem text cursor with
          | (none, cursor) => return (none, cursor)
          | (some buf, cursor) =>
              let (_, out) ← tenStringAppend out (CString.ofMemory (buf ++ [0]))
              parseChars passes out cursor
        else
          closeString text out cursor
      else
        closeString text out cursor

/-- `ten__json_parse_string`. -/
def tenJsonParseString (cursor : Nat) : Ten (Option TenString × Nat) :=
  if cursor ≥ text.length then return (none, cursor)
  else do
    let c ← readAt text cursor
    if c ≠ ascii '"' then
      return (none, cursor)
    else
      let cursor ← moveTo text.length cursor (cursor + 1)
      let some out ← tenStringEmpty
        | return (none, cursor)
      parseChars text (text.length - cursor + 1) out cursor

/-- `p->cursor < p->end && *p->cursor == closing`. -/
def standsAt (closing : Byte) (cursor : Nat) : Ten Bool :=
  if cursor < text.length then do
    let c ← readAt text cursor
    return c = closing
  else return false

section Values

variable {D : Type} [CDouble D] (strtodEnd : Bytes → Nat)

/-- `ten__json_parse_number`, where `strtodEnd` is how far `strtod` moves
`*endptr`. -/
def tenJsonParseNumber (cursor : Nat) : Ten (Option (JsonNode D) × Nat) :=
  let length := strtodEnd (text.drop cursor)
  if length = 0 then return (none, cursor)
  else do
    let value : D := CDouble.strtod ((text.drop cursor).take length)
    let cursor ← moveTo text.length cursor (cursor + length)
    let json ← tenJsonCreateNumber value
    return (json, cursor)

/-- A literal name. -/
def parseLiteral (literal : Bytes) (create : Ten (Option (JsonNode D))) (cursor : Nat) :
    Ten (Option (JsonNode D) × Nat) :=
  if text.length - cursor ≥ literal.length then do
    let same ← matchAt text cursor literal
    if same then
      let cursor ← moveTo text.length cursor (cursor + literal.length)
      let json ← create
      return (json, cursor)
    else
      return (none, cursor)
  else return (none, cursor)

/-- The paths on which a value is destroyed and NULL returned. -/
def destroyAndFail (json : JsonNode D) (cursor : Nat) : Ten (Option (JsonNode D) × Nat) := do
  tenJsonDestroy (some json)
  return (none, cursor)

mutual

/-- `ten__json_parse_value`; the first argument bounds the depth of calls and
the passes of the loops. -/
def tenJsonParseValue : Nat → Nat → Ten (Option (JsonNode D) × Nat)
  | 0, _ => stuck
  | steps + 1, cursor => do
      let cursor ← tenJsonSkipWs text cursor
      if cursor ≥ text.length then
        return (none, cursor)
      else
        let c ← readAt text cursor
        if c = ascii 'n' then
          parseLiteral text (asciiBytes ['n', 'u', 'l', 'l']) tenJsonCreateNull cursor
        else if c = ascii 't' then
          parseLiteral text (asciiBytes ['t', 'r', 'u', 'e']) (tenJsonCreateBool 1) cursor
        else if c = ascii 'f' then
          parseLiteral text (asciiBytes ['f', 'a', 'l', 's', 'e']) (tenJsonCreateBool 0) cursor
        else if c = ascii '"' then
          match ← tenJsonParseString text cursor with
          | (none, cursor) => return (none, cursor)
          | (some s, cursor) =>
              let json ← tenJsonAlloc (.string s)
              return (json, cursor)
        else if c = ascii '[' then
          let some arr ← tenJsonCreateArray
            | return (none, cursor)
          let cursor ← moveTo text.length cursor (cursor + 1)
          let cursor ← tenJsonSkipWs text cursor
          let closed ← standsAt text (ascii ']') cursor
          if closed then
            let cursor ← moveTo text.length cursor (cursor + 1)
            return (some arr, cursor)
          else
            parseElements steps arr cursor
        else if c = ascii '{' then
          let some obj ← tenJsonCreateObject
            | return (none, cursor)
          let cursor ← moveTo text.length cursor (cursor + 1)
          let cursor ← tenJsonSkipWs text cursor
          let closed ← standsAt text (ascii '}') cursor
          if closed then
            let cursor ← moveTo text.length cursor (cursor + 1)
            return (some obj, cursor)
          else
            parseMembers steps obj cursor
        else if c = ascii '-' ∨ (isDigit c = true) then
          tenJsonParseNumber text strtodEnd cursor
        else
          return (none, cursor)

/-- The loop over the elements of an array. -/
def parseElements : Nat → JsonNode D → Nat → Ten (Option (JsonNode D) × Nat)
  | 0, _, _ => stuck
  | steps + 1, arr, cursor => do
      match ← tenJsonParseValue steps cursor with
      | (none, cursor) => destroyAndFail arr cursor
      | (some element, cursor) =>
          let (rc, arr) ← tenJsonArrayAdd arr (some element)
          if rc ≠ .ok then
            tenJsonDestroy (some element)
            destroyAndFail arr cursor
          else
            let cursor ← tenJsonSkipWs text cursor
            if cursor ≥ text.length then
              destroyAndFail arr cursor
            else
              let c ← readAt text cursor
              if c = ascii ',' then
                let cursor ← moveTo text.length cursor (cursor + 1)
                parseElements steps arr cursor
              else if c = ascii ']' then
                let cursor ← moveTo text.length cursor (cursor + 1)
                return (some arr, cursor)
              else
                destroyAndFail arr cursor

/-- The loop over the members of an object. -/
def parseMembers : Nat → JsonNode D → Nat → Ten (Option (JsonNode D) × Nat)
  | 0, _, _ => stuck
  | steps + 1, obj, cursor => do
      let cursor ← tenJsonSkipWs text cursor
      match ← tenJsonParseString text cursor with
      | (none, cursor) => destroyAndFail obj cursor
      | (some key, cursor) =>
          let cursor ← tenJsonSkipWs text cursor
          let colon ← standsAt text (ascii ':') cursor
          if ¬ colon then
            destroyAndFail obj cursor
          else
            let cursor ← moveTo text.length cursor (cursor + 1)
            match ← tenJsonParseValue steps cursor with
            | (none, cursor) => destroyAndFail obj cursor
            | (some value, cursor) =>
                match obj with
                | .object object =>
                    let (rc, object) ← tenJsonObjectSetOwned object key value
                    let obj := .object object
                    if rc ≠ .ok then
                      tenJsonDestroy (some value)
                      destroyAndFail obj cursor
                    else
                      let cursor ← tenJsonSkipWs text cursor
                      if cursor ≥ text.length then
                        destroyAndFail obj cursor
                      else
                        let c ← readAt text cursor
                        if c = ascii ',' then
                          let cursor ← moveTo text.length cursor (cursor + 1)
                          parseMembers steps obj cursor
                        else if c = ascii '}' then
                          let cursor ← moveTo text.length cursor (cursor + 1)
                          return (some obj, cursor)
                        else
                          destroyAndFail obj cursor
                | _ => stuck

end

/-- `ten_json_parse`. -/
def tenJsonParse (text : Option CString) : Ten (Option (JsonNode D)) :=
  match text with
  | none => do
      tenSetError .nullArgument
      return none
  | some text => do
      match ← tenJsonParseValue text.bytes strtodEnd (2 * text.bytes.length + 1) 0 with
      | (none, _) =>
          tenSetError .parse
          return none
      | (some result, cursor) =>
          let cursor ← tenJsonSkipWs text.bytes cursor
          if cursor ≠ text.bytes.length then
            tenJsonDestroy (some result)
            tenSetError .parse
            return none
          else
            tenSetError .ok
            return some result

end Values

end Cursor

end Dotten
