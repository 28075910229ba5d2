/-
Module: Dotten.Encoding.TenHex
Layer: Encoding
Purpose: The hex functions of encoding.c.
Imports: Dotten.Core.World, Dotten.Library.PrefixCode
Main exports: tenHexDigits, tenHexValue, HexPair, tenHexEncode, tenHexDecode
-/
import Dotten.Core.World
import Dotten.Library.PrefixCode

namespace Dotten

open Dotten.Library

/-- `TEN_HEX_DIGITS`. -/
def tenHexDigits : Bytes := asciiBytes
  ['0', '1', '2', '3', '4', '5', '6', '7', '8', '9', 'a', 'b', 'c', 'd', 'e', 'f']

/-- `ten__hex_value`. -/
def tenHexValue (c : Byte) : Int :=
  if c ≥ ascii '0' ∧ c ≤ ascii '9' then c.toNat - '0'.toNat
  else if c ≥ ascii 'a' ∧ c ≤ ascii 'f' then c.toNat - 'a'.toNat + 10
  else if c ≥ ascii 'A' ∧ c ≤ ascii 'F' then c.toNat - 'A'.toNat + 10
  else -1

/-- The digit of a half byte. -/
def tenHexDigit (value : Nat) : Byte := tenHexDigits.getD value 0

/-- The two characters that one pass of the loop of `ten_hex_encode` writes. -/
def tenHexEncodeOne (b : Byte) : Bytes :=
  [tenHexDigit (b.toNat >>> 4), tenHexDigit (b.toNat &&& 0xF)]

/-- `ten_hex_encode`: the string that starts at the block. -/
def tenHexEncode (data : Option Bytes) (size : Nat) : Ten (Option CString) := do
  if data = none ∧ size > 0 then
    tenSetError .nullArgument
    return none
  let some _ ← tenMalloc
    | return none
  let out := ((data.getD []).take size).flatMap tenHexEncodeOne
  tenSetError .ok
  return some (CString.ofMemory (out ++ [0]))

/-- The two characters that one pass of the loop of `ten_hex_decode` reads. -/
structure HexPair where
  c0 : Byte
  c1 : Byte

namespace HexPair

def text (pair : HexPair) : Bytes := [pair.c0, pair.c1]

/-- The two values. -/
def hi (pair : HexPair) : Int := tenHexValue pair.c0

def lo (pair : HexPair) : Int := tenHexValue pair.c1

/-- The byte that the pass writes. -/
def byte (pair : HexPair) : Byte := UInt8.ofNat (pair.hi.toNat <<< 4 ||| pair.lo.toNat)

end HexPair

/-- The pair that the loop reads from the characters that remain, unless it
fails.  Their number is even. -/
def tenHexDecodeOne : Bytes → Option (HexPair × Nat)
  | c0 :: c1 :: _ =>
      let pair : HexPair := ⟨c0, c1⟩
      if pair.hi < 0 ∨ pair.lo < 0 then none else some (pair, 2)
  | _ => none

/-- `ten_hex_decode` with a place for the size: the bytes, and their number. -/
def tenHexDecode (text : Option CString) : Ten (Option (Bytes × Nat)) :=
  match text with
  | none => do
      tenSetError .nullArgument
      return none
  | some text => do
      if text.length % 2 ≠ 0 then
        tenSetError .encoding
        return none
      let some _ ← tenMalloc
        | return none
      scanWords tenHexDecodeOne stuck
        (do
          tenSetError .encoding
          return none)
        (fun out => do
          tenSetError .ok
          return some (out, text.length / 2))
        (fun out pair => out ++ [pair.byte]) text.length text.bytes []

end Dotten
