/-
Module: Dotten.Encoding.IndexedCodecs
Layer: Encoding
Purpose: The functions of encoding.c that compute the size of a block before they
  fill it, with the indices through which they read and write.  Sizes and
  indices are values of `size_t`, and a read or a write outside its block gets
  stuck.
Imports: Dotten.Encoding.TenBase64, Dotten.Encoding.TenUtf,
  Dotten.Library.IndexLoop
Main exports: sizeT, Indexed.tenBase64Encode, Indexed.tenBase64Decode,
  Indexed.tenUtf8DecodeOne, Indexed.tenUtf8ToUtf16, Indexed.tenUtf16ToUtf8
-/
import Dotten.Encoding.TenBase64
import Dotten.Encoding.TenUtf
import Dotten.Library.IndexLoop
import Mathlib.Algebra.Ring.Nat

namespace Dotten

open Dotten.Library

/-- A result of `size_t` arithmetic on a platform of 64 bits. -/
def sizeT (n : Nat) : Nat := n % 2 ^ 64

/-- What a block holds that a function returns, with `none` where nothing has
been written. -/
abbrev Filling (α : Type) := List (Option α)

namespace Indexed

/-! ### Base64 -/

/-- `condition ? input[i] : 0`. -/
def readIf (condition : Prop) [Decidable condition] (input : Bytes) (i : Nat) : Ten Byte :=
  if condition then readAt input i else return 0

/-- The body of the loop of `ten_base64_encode`. -/
def encodePass (bytes : Bytes) (size i : Nat) (out : Output Byte) :
    Ten (Pass (Output Byte) (Option (Filling Byte))) := do
  let a ← readAt bytes i
  let b ← readIf (sizeT (i + 1) < size) bytes (sizeT (i + 1))
  let c ← readIf (sizeT (i + 2) < size) bytes (sizeT (i + 2))
  let triple := a.toNat <<< 16 ||| b.toNat <<< 8 ||| c.toNat
  let out ← out.putAll
    [tenBase64Char (triple >>> 18 &&& 0x3F), tenBase64Char (triple >>> 12 &&& 0x3F),
      if sizeT (i + 1) < size then tenBase64Char (triple >>> 6 &&& 0x3F) else ascii '=',
      if sizeT (i + 2) < size then tenBase64Char (triple &&& 0x3F) else ascii '=']
  return .on (sizeT (i + 3)) out

/-- `ten_base64_encode` of the first `size` bytes at `data`. -/
def tenBase64Encode (data : Option Bytes) (size : Nat) : Ten (Option (Filling Byte)) := do
  if data = none ∧ size > 0 then
    tenSetError .nullArgument
    return none
  let outLen := sizeT (sizeT (size + 2) / 3 * 4)
  let some _ ← tenMalloc
    | return none
  indexLoop size (encodePass ((data.getD []).take size) size)
    (fun out => do
      let block ← out.close 0
      tenSetError .ok
      return some block)
    size 0 (Output.fresh (sizeT (outLen + 1)))

/-- The body of the loop of `ten_base64_decode`. -/
def decodePass (text : Bytes) (i : Nat) (out : Output Byte) :
    Ten (Pass (Output Byte) (Option (Filling Byte × Nat))) := do
  let c0 ← readAt text i
  let c1 ← readAt text (sizeT (i + 1))
  let c2 ← readAt text (sizeT (i + 2))
  let c3 ← readAt text (sizeT (i + 3))
  let group : Base64Group := ⟨c0, c1, c2, c3⟩
  if group.Rejected then
    tenSetError .encoding
    return .leave none
  else
    let out ← out.putAll group.bytes
    return .on (sizeT (i + 4)) out

/-- `ten_base64_decode` with a place for the size. -/
def tenBase64Decode (text : Option CString) : Ten (Option (Filling Byte × Nat)) :=
  match text with
  | none => do
      tenSetError .nullArgument
      return none
  | some text => do
      if text.length % 4 ≠ 0 then
        tenSetError .encoding
        return none
      let outLen := sizeT (text.length / 4 * 3)
      let some _ ← tenMalloc
        | return none
      indexLoop text.length (decodePass text.bytes)
        (fun out => do
          tenSetError .ok
          return some (out.block, out.pos))
        text.length 0 (Output.fresh (if outLen > 0 then outLen else 1))

/-! ### UTF-8 to UTF-16 -/

/-- `(s[0] & 0xC0) == 0x80 && (s[1] & 0xC0) == 0x80 && ...` for `count` bytes,
which stops at the first that is no continuation. -/
def continuations (text : Bytes) : Nat → Nat → Ten Bool
  | _, 0 => return true
  | s, count + 1 => do
      let c ← readAt text s
      if c &&& 0xC0 = 0x80 then continuations text (s + 1) count else return false

/-- `first && second`, where the second is looked at only if it matters. -/
def andAlso (first : Prop) [Decidable first] (second : Ten Bool) : Ten Bool :=
  if first then second else return false

/-- The branch of the two-byte forms in `ten__utf8_decode_one`. -/
def decodeTwo (text : Bytes) (s : Nat) (c : Byte) : Ten (Option (Nat × Nat)) := do
  let s1 ← readAt text (s + 1)
  let cp := (c &&& 0x1F).toNat <<< 6 ||| (s1 &&& 0x3F).toNat
  return if cp ≥ 0x80 then some (cp, 2) else none

/-- The branch of the three-byte forms. -/
def decodeThree (text : Bytes) (s : Nat) (c : Byte) : Ten (Option (Nat × Nat)) := do
  let s1 ← readAt text (s + 1)
  let s2 ← readAt text (s + 2)
  let cp := (c &&& 0x0F).toNat <<< 12 ||| (s1 &&& 0x3F).toNat <<< 6 ||| (s2 &&& 0x3F).toNat
  return if cp ≥ 0x800 then some (cp, 3) else none

/-- The branch of the four-byte forms. -/
def decodeFour (text : Bytes) (s : Nat) (c : Byte) : Ten (Option (Nat × Nat)) := do
  let s1 ← readAt text (s + 1)
  let s2 ← readAt text (s + 2)
  let s3 ← readAt text (s + 3)
  let cp := (c &&& 0x07).toNat <<< 18 ||| (s1 &&& 0x3F).toNat <<< 12 |||
    (s2 &&& 0x3F).toNat <<< 6 ||| (s3 &&& 0x3F).toNat
  return if cp ≥ 0x10000 ∧ cp ≤ 0x10FFFF then some (cp, 4) else none

/-- `ten__utf8_decode_one` of the `remaining` bytes from `s` on. -/
def tenUtf8DecodeOne (text : Bytes) (s remaining : Nat) : Ten (Option (Nat × Nat)) := do
  let c ← readAt text s
  if c < 0x80 then
    return some (c.toNat, 1)
  else
    let two ← andAlso (c &&& 0xE0 = 0xC0 ∧ remaining ≥ 2) (continuations text (s + 1) 1)
    if two then
      decodeTwo text s c
    else
      let three ← andAlso (c &&& 0xF0 = 0xE0 ∧ remaining ≥ 3) (continuations text (s + 1) 2)
      if three then
        decodeThree text s c
      else
        let four ← andAlso (c &&& 0xF8 = 0xF0 ∧ remaining ≥ 4) (continuations text (s + 1) 3)
        if four then
          decodeFour text s c
        else
          return none

/-- The body of the first loop of `ten_utf8_to_utf16`. -/
def countUnitsPass (text : Bytes) (i units : Nat) : Ten (Pass Nat (Option Nat)) := do
  let some (cp, clen) ← tenUtf8DecodeOne text i (text.length - i)
    | tenSetError .encoding
      return .leave none
  return .on (sizeT (i + clen)) (sizeT (units + if cp > 0xFFFF then 2 else 1))

/-- The body of the second loop, which has no code point where the decoder
fails. -/
def writeUnitsPass (text : Bytes) (i : Nat) (out : Output UInt16) :
    Ten (Pass (Output UInt16) (Filling UInt16)) := do
  let some (cp, clen) ← tenUtf8DecodeOne text i (text.length - i)
    | stuck
  let out ← out.putAll (tenUtf16Units cp)
  return .on (sizeT (i + clen)) out

/-- The first loop. -/
def countUnits (text : Bytes) : Ten (Option Nat) :=
  indexLoop text.length (countUnitsPass text) (fun units => return some units) text.length 0 0

/-- The second loop on a block of so many units, and the zero behind it. -/
def writeUnits (text : Bytes) (size : Nat) : Ten (Filling UInt16) :=
  indexLoop text.length (writeUnitsPass text) (Output.close 0) text.length 0 (Output.fresh size)

/-- `ten_utf8_to_utf16` with a place for the length: the block, and the
length. -/
def tenUtf8ToUtf16 (utf8 : Option CString) : Ten (Option (Filling UInt16 × Nat)) :=
  match utf8 with
  | none => do
      tenSetError .nullArgument
      return none
  | some utf8 => do
      let some units ← countUnits utf8.bytes
        | return none
      let some _ ← tenMalloc
        | return none
      -- the size of the block is in bytes, two for each unit
      let out ← writeUnits utf8.bytes (sizeT (sizeT (units + 1) * 2) / 2)
      tenSetError .ok
      return some (out, units)

/-! ### UTF-16 to UTF-8 -/

/-- `i + 1 >= length || utf16[i + 1] < 0xDC00 || utf16[i + 1] > 0xDFFF`. -/
def unpaired (utf16 : List UInt16) (length i : Nat) : Ten Bool :=
  if sizeT (i + 1) ≥ length then return true
  else do
    let next ← readAt utf16 (sizeT (i + 1))
    return next < 0xDC00 ∨ next > 0xDFFF

/-- The code point of the pair at `i`. -/
def pairAt (utf16 : List UInt16) (i : Nat) (u : UInt16) : Ten Nat := do
  let next ← readAt utf16 (sizeT (i + 1))
  return 0x10000 + (u.toNat - 0xD800) <<< 10 + (next.toNat - 0xDC00)

/-- What the first loop of `ten_utf16_to_utf8` adds to `bytes`. -/
def utf8Size (cp : Nat) : Nat :=
  if cp < 0x80 then 1 else if cp < 0x800 then 2 else if cp < 0x10000 then 3 else 4

/-- The body of the first loop, where `i` is moved inside the body behind a pair
and by the loop behind every pass. -/
def countBytesPass (utf16 : List UInt16) (length i bytes : Nat) :
    Ten (Pass Nat (Option Nat)) := do
  let u ← readAt utf16 i
  if u ≥ 0xD800 ∧ u ≤ 0xDBFF then
    let alone ← unpaired utf16 length i
    if alone then
      tenSetError .encoding
      return .leave none
    else
      let cp ← pairAt utf16 i u
      return .on (sizeT (sizeT (i + 1) + 1)) (sizeT (bytes + utf8Size cp))
  else if u ≥ 0xDC00 ∧ u ≤ 0xDFFF then
    tenSetError .encoding
    return .leave none
  else
    return .on (sizeT (i + 1)) (sizeT (bytes + utf8Size u.toNat))

/-- The body of the second loop, which does not look whether a pair is one. -/
def writeBytesPass (utf16 : List UInt16) (i : Nat) (out : Output Byte) :
    Ten (Pass (Output Byte) (Filling Byte)) := do
  let u ← readAt utf16 i
  if u ≥ 0xD800 ∧ u ≤ 0xDBFF then
    let cp ← pairAt utf16 i u
    let out ← out.putAll (tenUtf8Bytes cp)
    return .on (sizeT (sizeT (i + 1) + 1)) out
  else
    let out ← out.putAll (tenUtf8Bytes u.toNat)
    return .on (sizeT (i + 1)) out

/-- The first loop. -/
def countBytes (utf16 : List UInt16) (length : Nat) : Ten (Option Nat) :=
  indexLoop length (countBytesPass utf16 length) (fun bytes => return some bytes) length 0 0

/-- The second loop on a block of so many bytes, and the NUL behind it. -/
def writeBytes (utf16 : List UInt16) (length size : Nat) : Ten (Filling Byte) :=
  indexLoop length (writeBytesPass utf16) (Output.close 0) length 0 (Output.fresh size)

/-- `ten_utf16_to_utf8` of the first `length` units at `utf16`. -/
def tenUtf16ToUtf8 (utf16 : Option (List UInt16)) (length : Nat) :
    Ten (Option (Filling Byte)) := do
  if utf16 = none ∧ length > 0 then
    tenSetError .nullArgument
    return none
  let units := (utf16.getD []).take length
  let some bytes ← countBytes units length
    | return none
  let some _ ← tenMalloc
    | return none
  let out ← writeBytes units length (sizeT (bytes + 1))
  tenSetError .ok
  return some out

end Indexed

end Dotten
