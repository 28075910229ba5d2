/-
Module: Dotten.Library.FileStore
Layer: Library
Purpose: Files as bytes that names are bound to, several names perhaps to one
  file: creating, emptying and overwriting them.  Names are arbitrary.
Main exports: FileStore, FileStore.lookup, FileStore.put, FileStore.create,
  writeAt
-/
import Mathlib.Data.List.TakeDrop
import Mathlib.Logic.Function.Basic

namespace Dotten.Library

/-- Names, the files they are bound to, and the bytes of the files.  No name is
bound to a file that is still to be created. -/
structure FileStore (Name : Type) where
  file : Name → Option Nat
  bytes : Nat → List UInt8
  fresh : Nat
  unused : ∀ name number, file name = some number → number < fresh

/-- The bytes of a file after `data` was written at an offset.  A gap in front of
the offset is filled with zeros. -/
def writeAt (bytes : List UInt8) (offset : Nat) (data : List UInt8) : List UInt8 :=
  bytes.take offset ++ List.replicate (offset - bytes.length) 0 ++ data ++
    bytes.drop (offset + data.length)

/-- Writing at the end appends. -/
theorem writeAt_end (bytes data : List UInt8) : writeAt bytes bytes.length data = bytes ++ data := by
  rw [writeAt, List.take_length, Nat.sub_self, List.replicate_zero, List.append_nil,
    List.drop_eq_nil_of_le (Nat.le_add_right _ _), List.append_nil]

namespace FileStore

variable {Name : Type} (store : FileStore Name)

/-- The bytes of the file that a name is bound to. -/
def lookup (name : Name) : Option (List UInt8) := (store.file name).map store.bytes

/-- Replace the bytes of a file. -/
def put (number : Nat) (bytes : List UInt8) : FileStore Name :=
  { store with bytes := Function.update store.bytes number bytes }

/-- Bind a name to a new file, which is empty. -/
def create [DecidableEq Name] (name : Name) : FileStore Name where
  file := Function.update store.file name (some store.fresh)
  bytes := Function.update store.bytes store.fresh []
  fresh := store.fresh + 1
  unused := by
    intro other number bound
    by_cases same : other = name
    · subst same
      rw [Function.update_self, Option.some.injEq] at bound
      omega
    · rw [Function.update_of_ne same] at bound
      exact Nat.lt_succ_of_lt (store.unused other number bound)

variable {store} {name other : Name} {number : Nat} {bytes : List UInt8}

theorem lookup_of_file (bound : store.file name = some number) :
    store.lookup name = some (store.bytes number) := by
  rw [lookup, bound, Option.map_some]

@[simp] theorem put_file : (store.put number bytes).file = store.file := rfl

@[simp] theorem put_bytes_self : (store.put number bytes).bytes number = bytes :=
  Function.update_self _ _ _

theorem put_bytes_of_ne {another : Nat} (apart : another ≠ number) :
    (store.put number bytes).bytes another = store.bytes another :=
  Function.update_of_ne apart _ _

variable [DecidableEq Name]

@[simp] theorem create_file_self : (store.create name).file name = some store.fresh :=
  Function.update_self _ _ _

theorem create_file_of_ne (apart : other ≠ name) :
    (store.create name).file other = store.file other :=
  Function.update_of_ne apart _ _

@[simp] theorem create_bytes_fresh : (store.create name).bytes store.fresh = [] :=
  Function.update_self _ _ _

/-- The files that were there keep their bytes. -/
theorem create_bytes_of_file (bound : store.file other = some number) :
    (store.create name).bytes number = store.bytes number :=
  Function.update_of_ne (Nat.ne_of_lt (store.unused other number bound)) _ _

end FileStore

end Dotten.Library
