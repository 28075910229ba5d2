/-
Module: Dotten.Encoding.TenUtf
Layer: Encoding
Purpose: The UTF-8 and UTF-16 functions of encoding.c.
Imports: Dotten.Core.World, Dotten.Library.PrefixCode
Main exports: tenUtf8DecodeOne, tenUtf16DecodeOne, tenUtf8ToUtf16,
  tenUtf16ToUtf8, tenUtf8Validate
-/
import Dotten.Core.World
import Dotten.Library.PrefixCode

namespace Dotten

open Dotten.Library

/-- `ten__utf8_decode_one` on the bytes that remain: the code point and the
length of its form.  No caller has it read from nothing. -/
def tenUtf8DecodeOne : Bytes → Option (Nat × Nat)
  | [] => none
  | c :: tail =>
      let remaining := tail.length + 1
      let s1 := tail.getD 0 0
      let s2 := tail.getD 1 0
      let s3 := tail.getD 2 0
      if c < 0x80 then some (c.toNat, 1)
      else if c &&& 0xE0 = 0xC0 ∧ remaining ≥ 2 ∧ s1 &&& 0xC0 = 0x80 then
        let cp := (c &&& 0x1F).toNat <<< 6 ||| (s1 &&& 0x3F).toNat
        if cp ≥ 0x80 then some (cp, 2) else none
      else if c &&& 0xF0 = 0xE0 ∧ remaining ≥ 3 ∧ s1 &&& 0xC0 = 0x80 ∧ s2 &&& 0xC0 = 0x80 then
        let cp := (c &&& 0x0F).toNat <<< 12 ||| (s1 &&& 0x3F).toNat <<< 6 ||| (s2 &&& 0x3F).toNat
        if cp ≥ 0x800 then some (cp, 3) else none
      else if c &&& 0xF8 = 0xF0 ∧ remaining ≥ 4 ∧ s1 &&& 0xC0 = 0x80 ∧ s2 &&& 0xC0 = 0x80 ∧
          s3 &&& 0xC0 = 0x80 then
        let cp := (c &&& 0x07).toNat <<< 18 ||| (s1 &&& 0x3F).toNat <<< 12 |||
          (s2 &&& 0x3F).toNat <<< 6 ||| (s3 &&& 0x3F).toNat
        if cp ≥ 0x10000 ∧ cp ≤ 0x10FFFF then some (cp, 4) else none
      else none

/-! ### UTF-8 to UTF-16 -/

/-- The units that the second loop of `ten_utf8_to_utf16` writes for a code
point. -/
def tenUtf16Units (cp : Nat) : List UInt16 :=
  if cp > 0xFFFF then
    let v := cp - 0x10000
    [UInt16.ofNat (0xD800 + v >>> 10), UInt16.ofNat (0xDC00 + (v &&& 0x3FF))]
  else [UInt16.ofNat cp]

/-- The first loop of `ten_utf8_to_utf16` counts the units. -/
def tenUtf8CountUnits (text : Bytes) : Ten (Option Nat) :=
  scanWords tenUtf8DecodeOne stuck
    (do
      tenSetError .encoding
      return none)
    (fun units => return some units)
    (fun units cp => units + if cp > 0xFFFF then 2 else 1) text.length text 0

/-- The second loop writes them.  It does not look at what
`ten__utf8_decode_one` returns, since the first loop has. -/
def tenUtf8WriteUnits (text : Bytes) : Ten (List UInt16) :=
  scanWords tenUtf8DecodeOne stuck stuck (fun out => return out)
    (fun out cp => out ++ tenUtf16Units cp) text.length text []

/-- `ten_utf8_to_utf16` with a place for the length: the units before the
terminating zero, and the length. -/
def tenUtf8ToUtf16 (utf8 : Option CString) : Ten (Option (List UInt16 × Nat)) :=
  match utf8 with
  | none => do
      tenSetError .nullArgument
      return none
  | some utf8 => do
      let some units ← tenUtf8CountUnits utf8.bytes
        | return none
      let some _ ← tenMalloc
        | return none
      let out ← tenUtf8WriteUnits utf8.bytes
      -- the block has room for the units that were counted and a zero
      if out.length > units then stuck
      tenSetError .ok
      return some (out, units)

/-! ### UTF-16 to UTF-8 -/

/-- The code point with which a pass of the first loop of `ten_utf16_to_utf8`
begins, and the number of units it takes. -/
def tenUtf16DecodeOne : List UInt16 → Option (Nat × Nat)
  | [] => none
  | u :: rest =>
      if u ≥ 0xD800 ∧ u ≤ 0xDBFF then
        match rest with
        | [] => none
        | next :: _ =>
            if next < 0xDC00 ∨ next > 0xDFFF then none
            else some (0x10000 + (u.toNat - 0xD800) <<< 10 + (next.toNat - 0xDC00), 2)
      else if u ≥ 0xDC00 ∧ u ≤ 0xDFFF then none
      else some (u.toNat, 1)

/-- The code point with which a pass of the second loop begins, which looks for
high surrogates only, since the first loop has seen that each is followed by a
low one. -/
def tenUtf16DecodeChecked : List UInt16 → Option (Nat × Nat)
  | [] => none
  | u :: rest =>
      if u ≥ 0xD800 ∧ u ≤ 0xDBFF then
        match rest with
        | [] => none
        | next :: _ => some (0x10000 + (u.toNat - 0xD800) <<< 10 + (next.toNat - 0xDC00), 2)
      else some (u.toNat, 1)

/-- The bytes that the second loop writes for a code point. -/
def tenUtf8Bytes (cp : Nat) : Bytes :=
  if cp < 0x80 then [UInt8.ofNat cp]
  else if cp < 0x800 then
    [UInt8.ofNat (0xC0 ||| cp >>> 6), UInt8.ofNat (0x80 ||| (cp &&& 0x3F))]
  else if cp < 0x10000 then
    [UInt8.ofNat (0xE0 ||| cp >>> 12), UInt8.ofNat (0x80 ||| (cp >>> 6 &&& 0x3F)),
      UInt8.ofNat (0x80 ||| (cp &&& 0x3F))]
  else
    [UInt8.ofNat (0xF0 ||| cp >>> 18), UInt8.ofNat (0x80 ||| (cp >>> 12 &&& 0x3F)),
      UInt8.ofNat (0x80 ||| (cp >>> 6 &&& 0x3F)), UInt8.ofNat (0x80 ||| (cp &&& 0x3F))]

/-- The first loop counts the bytes. -/
def tenUtf16CountBytes (utf16 : List UInt16) : Ten (Option Nat) :=
  scanWords tenUtf16DecodeOne stuck
    (do
      tenSetError .encoding
      return none)
    (fun bytes => return some bytes)
    (fun bytes cp => bytes +
      if cp < 0x80 then 1 else if cp < 0x800 then 2 else if cp < 0x10000 then 3 else 4)
    utf16.length utf16 0

/-- The second loop writes them. -/
def tenUtf16WriteBytes (utf16 : List UInt16) : Ten Bytes :=
  scanWords tenUtf16DecodeChecked stuck stuck (fun out => return out)
    (fun out cp => out ++ tenUtf8Bytes cp) utf16.length utf16 []

/-- `ten_utf16_to_utf8` of the first `length` units of an array: the string that
starts at the block. -/
def tenUtf16ToUtf8 (utf16 : Option (List UInt16)) (length : Nat) : Ten (Option CString) := do
  if utf16 = none ∧ length > 0 then
    tenSetError .nullArgument
    return none
  let units := (utf16.getD []).take length
  let some bytes ← tenUtf16CountBytes units
    | return none
  let some _ ← tenMalloc
    | return none
  let out ← tenUtf16WriteBytes units
  -- the block has room for the bytes that were counted and a NUL
  if out.length > bytes then stuck
  tenSetError .ok
  return some (CString.ofMemory (out ++ [0]))

/-! ### Validation -/

/-- `ten_utf8_validate` of the first `size` bytes of a text. -/
def tenUtf8Validate (text : Option Bytes) (size : Nat) : Ten Bool := do
  if text = none ∧ size > 0 then
    tenSetError .nullArgument
    return false
  let text := (text.getD []).take size
  scanWords tenUtf8DecodeOne stuck
    (do
      tenSetError .ok
      return false)
    (fun _ => do
      tenSetError .ok
      return true)
    (fun () _ => ()) text.length text ()

end Dotten
