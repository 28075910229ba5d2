/-
Module: Dotten.Core.TenType
Layer: Core
Purpose: The runtime type descriptors of type.h and the element sizes of
  type_internal.h, on a platform with eight-byte pointers.
Main exports: TenType, tenTypeSize
-/
import Mathlib.Tactic.Common

namespace Dotten

/-- `ten_type_t`. -/
inductive TenType where
  | void
  | bool
  | i8
  | i16
  | i32
  | i64
  | u8
  | u16
  | u32
  | u64
  | f32
  | f64
  | string
  | buffer
  | pointer
deriving DecidableEq, Repr, Inhabited

/-- `ten__type_size`.  Size zero marks a type that no collection accepts. -/
def tenTypeSize : TenType → Nat
  | .bool => 1
  | .i8 | .u8 => 1
  | .i16 | .u16 => 2
  | .i32 | .u32 | .f32 => 4
  | .i64 | .u64 | .f64 => 8
  | .string => 8
  | .buffer | .pointer => 8
  | .void => 0

/-- Every type but `void` can be stored. -/
theorem tenTypeSize_eq_zero_iff (type : TenType) : tenTypeSize type = 0 ↔ type = .void := by
  cases type <;> simp [tenTypeSize]

end Dotten
