/-
Module: Dotten.Json.TenJsonParser
Layer: Json
Purpose: The recursive descent parser of json.c.  The cursor is the text that is
  left before `end`; a parser returns the value and the text after it, or
  `none` for NULL.
Imports: Dotten.Json.TenJson, Dotten.Core.Strtod
Main exports: tenJsonSkipWs, tenJsonParseHex4, tenJsonCodepointBytes,
  tenJsonStringItem, tenJsonParseString, tenJsonParseNumber,
  tenJsonParseValue, tenJsonParse
-/
import Dotten.Json.TenJson
import Dotten.Core.Strtod

namespace Dotten

open Dotten.Library

/-- The test of `ten__json_skip_ws`. -/
def tenJsonIsWs (b : Byte) : Bool :=
  b = ascii ' ' || b = ascii '\t' || b = ascii '\n' || b = ascii '\r'

/-- `ten__json_skip_ws`. -/
def tenJsonSkipWs (p : Bytes) : Bytes := p.dropWhile tenJsonIsWs

/-- `ten__json_hex_digit`, with `none` for -1. -/
def tenJsonHexDigit (c : Byte) : Option Nat :=
  if '0'.toNat ≤ c.toNat ∧ c.toNat ≤ '9'.toNat then some (c.toNat - '0'.toNat)
  else if 'a'.toNat ≤ c.toNat ∧ c.toNat ≤ 'f'.toNat then some (c.toNat - 'a'.toNat + 10)
  else if 'A'.toNat ≤ c.toNat ∧ c.toNat ≤ 'F'.toNat then some (c.toNat - 'A'.toNat + 10)
  else none

/-- `ten__json_parse_hex4` on the four bytes at `s`. -/
def tenJsonParseHex4 (s0 s1 s2 s3 : Byte) : Option Nat :=
  match tenJsonHexDigit s0, tenJsonHexDigit s1, tenJsonHexDigit s2, tenJsonHexDigit s3 with
  | some d0, some d1, some d2, some d3 => some (d0 <<< 12 ||| d1 <<< 8 ||| d2 <<< 4 ||| d3)
  | _, _, _, _ => none

/-- The buffer of `ten__json_append_codepoint`, without its NUL. -/
def tenJsonCodepointBytes (cp : Nat) : Bytes :=
  if cp < 0x80 then [UInt8.ofNat cp]
  else if cp < 0x800 then
    [UInt8.ofNat (0xC0 ||| cp >>> 6), UInt8.ofNat (0x80 ||| (cp &&& 0x3F))]
  else if cp < 0x10000 then
    [UInt8.ofNat (0xE0 ||| cp >>> 12), UInt8.ofNat (0x80 ||| (cp >>> 6 &&& 0x3F)),
      UInt8.ofNat (0x80 ||| (cp &&& 0x3F))]
  else
    [UInt8.ofNat (0xF0 ||| cp >>> 18), UInt8.ofNat (0x80 ||| (cp >>> 12 &&& 0x3F)),
      UInt8.ofNat (0x80 ||| (cp >>> 6 &&& 0x3F)), UInt8.ofNat (0x80 ||| (cp &&& 0x3F))]

/-- The cases of `switch (*p->cursor)` after a backslash that append one
byte. -/
def tenJsonSimpleEscape (c : Byte) : Option Byte :=
  if c = ascii '"' then some (ascii '"')
  else if c = ascii '\\' then some (ascii '\\')
  else if c = ascii '/' then some (ascii '/')
  else if c = ascii 'b' then some 0x08
  else if c = ascii 'f' then some 0x0C
  else if c = ascii 'n' then some (ascii '\n')
  else if c = ascii 'r' then some (ascii '\r')
  else if c = ascii 't' then some (ascii '\t')
  else none

/-- `case 'u'`: the buffer to append and the cursor after the escape. -/
def tenJsonUnicodeEscape : Bytes → Option (Bytes × Bytes)
  | d0 :: d1 :: d2 :: d3 :: p =>
      match tenJsonParseHex4 d0 d1 d2 d3 with
      | none => none
      | some cp =>
          if 0xD800 ≤ cp ∧ cp ≤ 0xDBFF then
            match p with
            | b :: u :: e0 :: e1 :: e2 :: e3 :: p =>
                if b ≠ ascii '\\' ∨ u ≠ ascii 'u' then none
                else
                  match tenJsonParseHex4 e0 e1 e2 e3 with
                  | none => none
                  | some low =>
                      if low < 0xDC00 ∨ low > 0xDFFF then none
                      else
                        some (tenJsonCodepointBytes
                          (0x10000 + (cp - 0xD800) <<< 10 + (low - 0xDC00)), p)
            | _ => none
          else some (tenJsonCodepointBytes cp, p)
  | _ => none

/-- One pass of the loop of `ten__json_parse_string`: the buffer it appends and
the cursor after it. -/
def tenJsonStringItem : Bytes → Option (Bytes × Bytes)
  | [] => none
  | c :: p =>
      if c ≠ ascii '\\' then some ([c], p)
      else
        match p with
        | [] => none
        | c :: p =>
            match tenJsonSimpleEscape c with
            | some b => some ([b], p)
            | none => if c = ascii 'u' then tenJsonUnicodeEscape p else none

/-- The loop of `ten__json_parse_string`.  The return code of the append is
ignored. -/
def tenJsonParseChars : Nat → TenString → Bytes → Ten (Option (TenString × Bytes))
  | 0, _, _ => stuck
  | steps + 1, out, p =>
      match p with
      | [] => return none
      | c :: rest =>
          if c = ascii '"' then return some (out, rest)
          else
            match tenJsonStringItem p with
            | none => return none
            | some (buf, p) => do
                let (_, out) ← tenStringAppend out (CString.ofMemory (buf ++ [0]))
                tenJsonParseChars steps out p

/-- `ten__json_parse_string`. -/
def tenJsonParseString (p : Bytes) : Ten (Option (TenString × Bytes)) :=
  match p with
  | [] => return none
  | c :: p =>
      if c ≠ ascii '"' then return none
      else do
        let some out ← tenStringEmpty
          | return none
        tenJsonParseChars (p.length + 1) out p

section Values

variable {D : Type} [CDouble D]

/-- `ten__json_parse_number`. -/
def tenJsonParseNumber (p : Bytes) : Ten (Option (JsonNode D × Bytes)) :=
  let length := strtodLen p
  if length = 0 then return none
  else do
    let some json ← tenJsonCreateNumber (CDouble.strtod (p.take length) : D)
      | return none
    return some (json, p.drop length)

/-- A literal name: `memcmp` against the text, then the constructor. -/
def tenJsonParseLiteral (literal : Bytes) (create : Ten (Option (JsonNode D))) (p : Bytes) :
    Ten (Option (JsonNode D × Bytes)) :=
  if literal.length ≤ p.length ∧ p.take literal.length = literal then do
    let some json ← create
      | return none
    return some (json, p.drop literal.length)
  else return none

/-- The paths on which a value is destroyed and NULL returned. -/
def destroyAndFail (json : JsonNode D) : Ten (Option (JsonNode D × Bytes)) := do
  tenJsonDestroy (some json)
  return none

mutual

/-- `ten__json_parse_value`; the first argument bounds the depth of calls and
the passes of the loops. -/
def tenJsonParseValue : Nat → Bytes → Ten (Option (JsonNode D × Bytes))
  | 0, _ => stuck
  | steps + 1, p =>
      match tenJsonSkipWs p with
      | [] => return none
      | c :: rest =>
          let p := c :: rest
          if c = ascii 'n' then
            tenJsonParseLiteral (asciiBytes ['n', 'u', 'l', 'l']) tenJsonCreateNull p
          else if c = ascii 't' then
            tenJsonParseLiteral (asciiBytes ['t', 'r', 'u', 'e']) (tenJsonCreateBool 1) p
          else if c = ascii 'f' then
            tenJsonParseLiteral (asciiBytes ['f', 'a', 'l', 's', 'e']) (tenJsonCreateBool 0) p
          else if c = ascii '"' then do
            let some (s, p) ← tenJsonParseString p
              | return none
            let some json ← tenJsonAlloc (.string s)
              | return none
            return some (json, p)
          else if c = ascii '[' then do
            let some arr ← tenJsonCreateArray
              | return none
            let p := tenJsonSkipWs rest
            match p with
            | c :: rest =>
                if c = ascii ']' then return some (arr, rest)
                else tenJsonParseElements steps arr p
            | [] => tenJsonParseElements steps arr p
          else if c = ascii '{' then do
            let some obj ← tenJsonCreateObject
              | return none
            let p := tenJsonSkipWs rest
            match p with
            | c :: rest =>
                if c = ascii '}' then return some (obj, rest)
                else tenJsonParseMembers steps obj p
            | [] => tenJsonParseMembers steps obj p
          else if c = ascii '-' ∨ (isDigit c = true) then tenJsonParseNumber p
          else return none

/-- The loop over the elements of an array. -/
def tenJsonParseElements : Nat → JsonNode D → Bytes → Ten (Option (JsonNode D × Bytes))
  | 0, _, _ => stuck
  | steps + 1, arr, p => do
      let some (element, p) ← tenJsonParseValue steps p
        | destroyAndFail arr
      let (rc, arr) ← tenJsonArrayAdd arr (some element)
      if rc ≠ .ok then
        tenJsonDestroy (some element)
        destroyAndFail arr
      else
        match tenJsonSkipWs p with
        | [] => destroyAndFail arr
        | c :: p =>
            if c = ascii ',' then tenJsonParseElements steps arr p
            else if c = ascii ']' then return some (arr, p)
            else destroyAndFail arr

/-- The loop over the members of an object. -/
def tenJsonParseMembers : Nat → JsonNode D → Bytes → Ten (Option (JsonNode D × Bytes))
  | 0, _, _ => stuck
  | steps + 1, obj, p => do
      let some (key, p) ← tenJsonParseString (tenJsonSkipWs p)
        | destroyAndFail obj
      match tenJsonSkipWs p with
      | [] => destroyAndFail obj
      | c :: p =>
          if c ≠ ascii ':' then destroyAndFail obj
          else do
            let some (value, p) ← tenJsonParseValue steps p
              | destroyAndFail obj
            match obj with
            | .object object =>
                let (rc, object) ← tenJsonObjectSetOwned object key value
                let obj := .object object
                if rc ≠ .ok then
                  tenJsonDestroy (some value)
                  destroyAndFail obj
                else
                  match tenJsonSkipWs p with
                  | [] => destroyAndFail obj
                  | c :: p =>
                      if c = ascii ',' then tenJsonParseMembers steps obj p
                      else if c = ascii '}' then return some (obj, p)
                      else destroyAndFail obj
            | _ => stuck

end

/-- `ten_json_parse`. -/
def tenJsonParse (text : Option CString) : Ten (Option (JsonNode D)) :=
  match text with
  | none => do
      tenSetError .nullArgument
      return none
  | some text => do
      match ← tenJsonParseValue (2 * text.bytes.length + 1) text.bytes with
      | none =>
          tenSetError .parse
          return none
      | some (result, p) =>
          if tenJsonSkipWs p ≠ [] then
            tenJsonDestroy (some result)
            tenSetError .parse
            return none
          else
            tenSetError .ok
            return some result

end Values

end Dotten
