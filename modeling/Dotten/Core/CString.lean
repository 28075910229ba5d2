/-
Module: Dotten.Core.CString
Layer: Core
Purpose: Bytes in memory and NUL-terminated strings, as <string.h> reads them.
Main exports: Byte, Bytes, ascii, lowerByte, CString, CString.ofMemory, CString.append,
  CString.concat
-/
import Mathlib.Data.List.TakeWhile

namespace Dotten

abbrev Byte := UInt8
abbrev Bytes := List Byte

/-- A character constant of the source. -/
abbrev ascii (c : Char) : Byte := c.toUInt8

/-- The bytes of a string literal of the source. -/
abbrev asciiBytes (literal : List Char) : Bytes := literal.map ascii

/-- A letter in lower case, every other byte as it is. -/
def lowerByte (b : Byte) : Byte :=
  if ascii 'A' ≤ b ∧ b ≤ ascii 'Z' then b - ascii 'A' + ascii 'a' else b

/-- A property of bytes is checked on the 256 of them, one half byte after the other. -/
theorem forall_byte {P : Byte → Prop}
    (all : ∀ high low : Fin 16, P (UInt8.ofNat (16 * high.val + low.val))) (b : Byte) : P b := by
  have small := b.toNat_lt
  have here := all ⟨b.toNat / 16, by omega⟩ ⟨b.toNat % 16, by omega⟩
  rw [Nat.div_add_mod, UInt8.ofNat_toNat] at here
  exact here

/-- A property of the members of a list is checked on one after the other. -/
theorem forall_mem_of_all {α : Type} {P : α → Prop} [DecidablePred P] {list : List α}
    (all : list.all (fun x => decide (P x)) = true) : ∀ x ∈ list, P x := by
  intro x member
  exact of_decide_eq_true (List.all_eq_true.mp all x member)

/-- The bytes of a `char *` argument up to its terminating NUL. -/
structure CString where
  bytes : Bytes
  noNul : (0 : Byte) ∉ bytes
deriving DecidableEq, Repr

namespace CString

instance : Inhabited CString := ⟨⟨[], by simp⟩⟩

@[ext] theorem ext {left right : CString} (same : left.bytes = right.bytes) :
    left = right := by
  cases left
  cases right
  cases same
  rfl

/-- `strlen`. -/
def length (s : CString) : Nat := s.bytes.length

/-- The string that starts at the first byte of `memory`. -/
def ofMemory (memory : Bytes) : CString where
  bytes := memory.takeWhile (· ≠ 0)
  noNul := by
    intro member
    have nonzero := List.mem_takeWhile_imp member
    simp at nonzero

theorem takeWhile_append_nul {content : Bytes} (noNul : (0 : Byte) ∉ content)
    (rest : Bytes) :
    (content ++ 0 :: rest).takeWhile (· ≠ 0) = content := by
  induction content with
  | nil => simp
  | cons head tail inductionHypothesis =>
      rw [List.mem_cons, not_or] at noNul
      rw [List.cons_append, List.takeWhile_cons_of_pos (by simpa using Ne.symm noNul.1),
        inductionHypothesis noNul.2]

/-- A block that holds a string and its terminator reads as that string,
whatever lies behind the terminator. -/
theorem ofMemory_append_nul (s : CString) (rest : Bytes) :
    ofMemory (s.bytes ++ 0 :: rest) = s :=
  CString.ext (takeWhile_append_nul s.noNul rest)

theorem ofMemory_bytes_of_noNul {memory : Bytes} (noNul : (0 : Byte) ∉ memory) :
    (ofMemory memory).bytes = memory := by
  refine List.takeWhile_eq_self_iff.mpr ?_
  intro byte member
  have : byte ≠ 0 := fun zero => noNul (zero ▸ member)
  simpa using this

@[simp] theorem ofMemory_bytes (s : CString) : ofMemory s.bytes = s :=
  CString.ext (ofMemory_bytes_of_noNul s.noNul)

/-- Two strings one after the other. -/
def append (left right : CString) : CString where
  bytes := left.bytes ++ right.bytes
  noNul := by
    rw [List.mem_append, not_or]
    exact ⟨left.noNul, right.noNul⟩

@[simp] theorem append_bytes (left right : CString) :
    (left.append right).bytes = left.bytes ++ right.bytes := rfl

@[simp] theorem default_bytes : (default : CString).bytes = [] := rfl

@[simp] theorem append_default (s : CString) : s.append default = s :=
  ext (List.append_nil _)

@[simp] theorem default_append (s : CString) : (default : CString).append s = s := rfl

theorem append_assoc (a b c : CString) : (a.append b).append c = a.append (b.append c) :=
  ext (List.append_assoc _ _ _)

/-- Several strings one after the other. -/
def concat (pieces : List CString) : CString := pieces.foldr append default

@[simp] theorem concat_nil : concat [] = default := rfl

@[simp] theorem concat_cons (piece : CString) (pieces : List CString) :
    concat (piece :: pieces) = piece.append (concat pieces) := rfl

end CString

end Dotten
