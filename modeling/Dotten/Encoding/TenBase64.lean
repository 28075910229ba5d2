/-
Module: Dotten.Encoding.TenBase64
Layer: Encoding
Purpose: The Base64 functions of encoding.c.
Imports: Dotten.Core.World, Dotten.Library.PrefixCode
Main exports: tenBase64Alphabet, tenBase64Value, tenBase64Encode,
  tenBase64Decode
-/
import Dotten.Core.World
import Dotten.Library.PrefixCode

namespace Dotten

open Dotten.Library

/-- `TEN_BASE64_ALPHABET`. -/
def tenBase64Alphabet : Bytes := asciiBytes
  ['A', 'B', 'C', 'D', 'E', 'F', 'G', 'H', 'I', 'J', 'K', 'L', 'M', 'N', 'O', 'P', 'Q', 'R', 'S',
    'T', 'U', 'V', 'W', 'X', 'Y', 'Z', 'a', 'b', 'c', 'd', 'e', 'f', 'g', 'h', 'i', 'j', 'k', 'l',
    'm', 'n', 'o', 'p', 'q', 'r', 's', 't', 'u', 'v', 'w', 'x', 'y', 'z', '0', '1', '2', '3', '4',
    '5', '6', '7', '8', '9', '+', '/']

/-- `ten__base64_value`. -/
def tenBase64Value (c : Byte) : Int :=
  if c ≥ ascii 'A' ∧ c ≤ ascii 'Z' then c.toNat - 'A'.toNat
  else if c ≥ ascii 'a' ∧ c ≤ ascii 'z' then c.toNat - 'a'.toNat + 26
  else if c ≥ ascii '0' ∧ c ≤ ascii '9' then c.toNat - '0'.toNat + 52
  else if c = ascii '+' then 62
  else if c = ascii '/' then 63
  else -1

/-! ### Encoding -/

/-- The character of a six-bit value. -/
def tenBase64Char (value : Nat) : Byte := tenBase64Alphabet.getD value 0

/-- The four characters that one pass of the loop of `ten_base64_encode` writes,
from the bytes that remain. -/
def tenBase64EncodeOne (bytes : Bytes) : Bytes :=
  let a := (bytes.getD 0 0).toNat
  let b := if 1 < bytes.length then (bytes.getD 1 0).toNat else 0
  let c := if 2 < bytes.length then (bytes.getD 2 0).toNat else 0
  let triple := a <<< 16 ||| b <<< 8 ||| c
  [tenBase64Char (triple >>> 18 &&& 0x3F), tenBase64Char (triple >>> 12 &&& 0x3F),
    if 1 < bytes.length then tenBase64Char (triple >>> 6 &&& 0x3F) else ascii '=',
    if 2 < bytes.length then tenBase64Char (triple &&& 0x3F) else ascii '=']

/-- The loop, which takes three bytes at a time. -/
def tenBase64EncodeLoop : Bytes → Bytes
  | [] => []
  | [a] => tenBase64EncodeOne [a]
  | [a, b] => tenBase64EncodeOne [a, b]
  | a :: b :: c :: rest => tenBase64EncodeOne (a :: b :: c :: rest) ++ tenBase64EncodeLoop rest

/-- `ten_base64_encode`: the string that starts at the block. -/
def tenBase64Encode (data : Option Bytes) (size : Nat) : Ten (Option CString) := do
  if data = none ∧ size > 0 then
    tenSetError .nullArgument
    return none
  let outLen := (size + 2) / 3 * 4
  let some _ ← tenMalloc
    | return none
  let out := tenBase64EncodeLoop ((data.getD []).take size)
  -- the block has room for `outLen` characters and a NUL
  if out.length > outLen then stuck
  tenSetError .ok
  return some (CString.ofMemory (out ++ [0]))

/-! ### Decoding -/

/-- The four characters that one pass of the loop of `ten_base64_decode` reads. -/
structure Base64Group where
  c0 : Byte
  c1 : Byte
  c2 : Byte
  c3 : Byte

namespace Base64Group

def text (group : Base64Group) : Bytes := [group.c0, group.c1, group.c2, group.c3]

/-- `pad2` and `pad3`. -/
def pad2 (group : Base64Group) : Bool := group.c2 = ascii '='

def pad3 (group : Base64Group) : Bool := group.c3 = ascii '='

/-- The four values, with 0 for a padding character. -/
def a (group : Base64Group) : Int := tenBase64Value group.c0

def b (group : Base64Group) : Int := tenBase64Value group.c1

def c (group : Base64Group) : Int := if group.pad2 then 0 else tenBase64Value group.c2

def d (group : Base64Group) : Int := if group.pad3 then 0 else tenBase64Value group.c3

/-- The condition on which the decoder fails. -/
def Rejected (group : Base64Group) : Prop :=
  group.a < 0 ∨ group.b < 0 ∨ (¬ group.pad2 ∧ group.c < 0) ∨ (¬ group.pad3 ∧ group.d < 0) ∨
    (group.pad2 ∧ ¬ group.pad3)

instance (group : Base64Group) : Decidable group.Rejected := inferInstanceAs (Decidable (_ ∨ _))

/-- The bytes that the pass writes. -/
def bytes (group : Base64Group) : Bytes :=
  UInt8.ofNat (group.a.toNat <<< 2 ||| group.b.toNat >>> 4) ::
    ((if group.pad2 then []
      else [UInt8.ofNat ((group.b.toNat &&& 0xF) <<< 4 ||| group.c.toNat >>> 2)]) ++
    (if group.pad3 then []
      else [UInt8.ofNat ((group.c.toNat &&& 0x3) <<< 6 ||| group.d.toNat)]))

end Base64Group

/-- The group that the loop reads from the characters that remain, unless it
fails.  Their number is a multiple of four. -/
def tenBase64DecodeOne : Bytes → Option (Base64Group × Nat)
  | c0 :: c1 :: c2 :: c3 :: _ =>
      let group : Base64Group := ⟨c0, c1, c2, c3⟩
      if group.Rejected then none else some (group, 4)
  | _ => none

/-- `ten_base64_decode` with a place for the size: the bytes, and their
number. -/
def tenBase64Decode (text : Option CString) : Ten (Option (Bytes × Nat)) :=
  match text with
  | none => do
      tenSetError .nullArgument
      return none
  | some text => do
      if text.length % 4 ≠ 0 then
        tenSetError .encoding
        return none
      let outLen := text.length / 4 * 3
      let some _ ← tenMalloc
        | return none
      scanWords tenBase64DecodeOne stuck
        (do
          tenSetError .encoding
          return none)
        (fun out => do
          -- the block has room for `outLen` bytes
          if out.length > outLen then stuck
          tenSetError .ok
          return some (out, out.length))
        (fun out group => out ++ group.bytes) text.length text.bytes []

end Dotten
