/-
Module: Dotten.Json.TenJsonStringify
Layer: Json
Purpose: The printer of json.c.  It appends to a string and ignores the return
  codes of the appends.
Imports: Dotten.Json.JsonView, Dotten.Core.Printf
Main exports: tenJsonEscapeByte, tenJsonStringifyEscapeString,
  tenJsonStringifyNumber, tenJsonStringifyValue, tenJsonStringify
-/
import Dotten.Json.JsonView
import Dotten.Core.Printf

namespace Dotten

open Dotten.Library

/-- `ten_string_append(out, text)` as a statement. -/
def tenStringPut (out : TenString) (text : Bytes) : Ten TenString := do
  let (_, out) ← tenStringAppend out (CString.ofMemory (text ++ [0]))
  return out

/-- What appends a piece of text to the output. -/
abbrev Emitter := TenString → Ten TenString

section Strings

/-- What the loop of `ten__json_stringify_escape_string` appends for a byte. -/
def tenJsonEscapeByte (c : Byte) : Bytes :=
  if c = ascii '"' then asciiBytes ['\\', '"']
  else if c = ascii '\\' then asciiBytes ['\\', '\\']
  else if c = ascii '\n' then asciiBytes ['\\', 'n']
  else if c = ascii '\r' then asciiBytes ['\\', 'r']
  else if c = ascii '\t' then asciiBytes ['\\', 't']
  else if c.toNat < 0x20 then snprintf 8 (asciiBytes ['\\', 'u'] ++ formatHex4 c.toNat)
  else [c]

/-- The loop of `ten__json_stringify_escape_string`. -/
def tenJsonStringifyChars : Bytes → Emitter
  | [], out => return out
  | c :: s, out => do
      let out ← tenStringPut out (tenJsonEscapeByte c)
      tenJsonStringifyChars s out

/-- `ten__json_stringify_escape_string`. -/
def tenJsonStringifyEscapeString (s : CString) : Emitter := fun out => do
  let out ← tenStringPut out (asciiBytes ['"'])
  let out ← tenJsonStringifyChars s.bytes out
  tenStringPut out (asciiBytes ['"'])

end Strings

section Values

variable {D : Type} [CDouble D]

/-- `case TEN_JSON_NUMBER`: what `snprintf` leaves in `buf`. -/
def tenJsonStringifyNumber (v : D) : Bytes :=
  if CDouble.eq v (CDouble.ofLongLong (CDouble.toLongLong v)) &&
      CDouble.lt (CDouble.ofLongLong (-10 ^ 15)) v && CDouble.lt v (CDouble.ofLongLong (10 ^ 15)) then
    snprintf 32 (formatSigned (CDouble.toLongLong v))
  else
    snprintf 32 (CDouble.formatG17 v).bytes

/-- `if (i > 0) ten_string_append(out, ",")`. -/
def tenJsonStringifyComma (i : Nat) : Emitter := fun out =>
  if i > 0 then tenStringPut out (asciiBytes [',']) else return out

/-- The loops over elements and members: `fetch i` reads the `i`-th and returns
what prints it. -/
def tenJsonStringifyItems (fetch : Nat → Ten Emitter) : Nat → Nat → Emitter
  | _, 0, out => return out
  | i, left + 1, out => do
      let emit ← fetch i
      let out ← tenJsonStringifyComma i out
      let out ← emit out
      tenJsonStringifyItems fetch (i + 1) left out

/-- The reading of the `i`-th element. -/
def tenJsonFetchElement (array : TenList Emitter) (i : Nat) : Ten Emitter := do
  let some element ← tenListGet array i
    | stuck
  return element

/-- `case TEN_JSON_ARRAY`, with the elements as what prints them. -/
def tenJsonStringifyArray (array : TenList Emitter) : Emitter := fun out => do
  let count ← tenListCount array
  let out ← tenStringPut out (asciiBytes ['['])
  let out ← tenJsonStringifyItems (tenJsonFetchElement array) 0 count out
  tenStringPut out (asciiBytes [']'])

/-- The reading of the `i`-th member.  The lookup is dereferenced without a
check. -/
def tenJsonFetchMember (object : JsonObject Emitter) (i : Nat) : Ten Emitter := do
  let some key ← tenListGet object.keyOrder i
    | stuck
  tenSetError .ok -- `ten_string_cstr`
  let some value ← tenMapGet object.entries (some key.pointer)
    | stuck
  return fun out => do
    let out ← tenJsonStringifyEscapeString key.cstr out
    let out ← tenStringPut out (asciiBytes [':'])
    value out

/-- `case TEN_JSON_OBJECT`, with the values as what prints them. -/
def tenJsonStringifyObject (object : JsonObject Emitter) : Emitter := fun out => do
  let count ← tenListCount object.keyOrder
  let out ← tenStringPut out (asciiBytes ['{'])
  let out ← tenJsonStringifyItems (tenJsonFetchMember object) 0 count out
  tenStringPut out (asciiBytes ['}'])

mutual

/-- `ten__json_stringify_value`. -/
def tenJsonStringifyValue : JsonNode D → Emitter
  | .null => fun out => tenStringPut out (asciiBytes ['n', 'u', 'l', 'l'])
  | .boolean value => fun out =>
      tenStringPut out
        (if value then asciiBytes ['t', 'r', 'u', 'e'] else asciiBytes ['f', 'a', 'l', 's', 'e'])
  | .number value => fun out => tenStringPut out (tenJsonStringifyNumber value)
  | .string value => fun out => do
      tenSetError .ok -- `ten_string_cstr`
      tenJsonStringifyEscapeString value.cstr out
  | .array ⟨type, elementSize, items, capacity⟩ =>
      tenJsonStringifyArray { type, elementSize, items := stringifyItems items, capacity }
  | .object ⟨⟨keyType, valueType, keySize, valueSize, buckets, bucketCount, count⟩, keyOrder⟩ =>
      let entries : TenMap CharPtr Emitter :=
        { keyType, valueType, keySize, valueSize, buckets := stringifyBuckets buckets,
          bucketCount, count }
      tenJsonStringifyObject { entries, keyOrder }

def stringifyItems : List (JsonNode D) → List Emitter
  | [] => []
  | node :: rest => tenJsonStringifyValue node :: stringifyItems rest

def stringifyBuckets :
    List (List (MapEntry CharPtr (JsonNode D))) → List (List (MapEntry CharPtr Emitter))
  | [] => []
  | chain :: rest => stringifyChain chain :: stringifyBuckets rest

def stringifyChain : List (MapEntry CharPtr (JsonNode D)) → List (MapEntry CharPtr Emitter)
  | [] => []
  | ⟨hash, key, value⟩ :: rest => ⟨hash, key, tenJsonStringifyValue value⟩ :: stringifyChain rest

end

/-- `ten_json_stringify`. -/
def tenJsonStringify (json : Option (JsonNode D)) : Ten (Option CString) :=
  match json with
  | none => do
      tenSetError .nullArgument
      return none
  | some json => do
      let some out ← tenStringEmpty
        | return none
      let out ← tenJsonStringifyValue json out
      let some result ← tenMemdup out.data (out.length + 1)
        | return none
      tenSetError .ok
      return some (CString.ofMemory result)

theorem stringifyItems_eq_map (items : List (JsonNode D)) :
    stringifyItems items = items.map tenJsonStringifyValue := by
  induction items with
  | nil => rfl
  | cons node rest inductionHypothesis =>
      rw [stringifyItems, inductionHypothesis, List.map_cons]

theorem stringifyChain_eq_map (chain : List (MapEntry CharPtr (JsonNode D))) :
    stringifyChain chain = chain.map fun entry =>
      { hash := entry.hash, key := entry.key, value := tenJsonStringifyValue entry.value } := by
  induction chain with
  | nil => rfl
  | cons entry rest inductionHypothesis =>
      rw [stringifyChain, inductionHypothesis, List.map_cons]

theorem stringifyBuckets_eq_map (buckets : List (List (MapEntry CharPtr (JsonNode D)))) :
    stringifyBuckets buckets = buckets.map fun chain => chain.map fun entry =>
      { hash := entry.hash, key := entry.key, value := tenJsonStringifyValue entry.value } := by
  induction buckets with
  | nil => rfl
  | cons chain rest inductionHypothesis =>
      rw [stringifyBuckets, inductionHypothesis, stringifyChain_eq_map, List.map_cons]

/-- The elements of an array are printed by `ten__json_stringify_value`. -/
theorem tenJsonStringifyValue_array (list : TenList (JsonNode D)) :
    tenJsonStringifyValue (.array list) =
      tenJsonStringifyArray { list with items := list.items.map tenJsonStringifyValue } := by
  rw [← stringifyItems_eq_map]
  rfl

/-- The values of an object are printed by `ten__json_stringify_value`. -/
theorem tenJsonStringifyValue_object (object : JsonObject (JsonNode D)) :
    tenJsonStringifyValue (.object object) =
      tenJsonStringifyObject
        { object with entries := object.entries.mapValues tenJsonStringifyValue } := by
  have sameTable : ({ object.entries with
      buckets := stringifyBuckets object.entries.buckets } : TenMap CharPtr Emitter) =
        object.entries.mapValues tenJsonStringifyValue := by
    rw [stringifyBuckets_eq_map]
    rfl
  rw [← sameTable]
  rfl

end Values

end Dotten
