/-
Module: Dotten.Containers.TenMap
Layer: Containers
Purpose: The chained hash table of map.c, with every allocation it makes.
Imports: Dotten.Core.World, Dotten.Core.CString, Dotten.Core.TenType,
  Dotten.Library.BucketTable
Main exports: KeyCell, CharPtr, MapEntry, TenMap, tenMapFind, tenMapCompared, tenMapCreate,
  tenMapSet, tenMapGet, tenMapRemove, tenMapContains, tenMapCount
-/
import Dotten.Core.World
import Dotten.Core.CString
import Dotten.Core.TenType
import Dotten.Library.BucketTable

namespace Dotten

open Dotten.Library
open Dotten.Library.BucketTable

/-- What a map may read through a key pointer: the bytes that lie there, and,
when they are a `const char *`, the string it points to.  That string is a
function of the cell: a referenced string is left unchanged while it is a
key. -/
class KeyCell (K : Type) where
  raw : K → Bytes
  cstr : K → CString

/-- A cell that holds a `const char *`: the address, and the string there. -/
structure CharPtr where
  addr : Nat
  cstr : CString
deriving DecidableEq, Repr

instance : KeyCell CharPtr where
  raw pointer := (List.range 8).map fun i => UInt8.ofNat (pointer.addr / 256 ^ i)
  cstr := CharPtr.cstr

/-- `ten_map_entry_t`; its `next` field is the chain it is in. -/
structure MapEntry (K V : Type) where
  hash : UInt64
  key : K
  value : V
deriving DecidableEq, Repr

/-- `struct ten_map`. -/
structure TenMap (K V : Type) where
  keyType : TenType
  valueType : TenType
  keySize : Nat
  valueSize : Nat
  buckets : List (List (MapEntry K V))
  bucketCount : Nat
  count : Nat
deriving DecidableEq, Repr

/-- `TEN_MAP_INITIAL_BUCKETS`. -/
def tenMapInitialBuckets : Nat := 16

/-- `ten__fnv1a`, with the 64-bit `unsigned long` of LP64 platforms. -/
def tenFnv1a (data : Bytes) : UInt64 :=
  data.foldl (fun hash byte => (hash ^^^ byte.toUInt64) * 16777619) 2166136261

section Functions

variable {K V : Type} [KeyCell K]

/-- `ten__map_hash`. -/
def tenMapHash (map : TenMap K V) (key : K) : UInt64 :=
  if map.keyType = .string then tenFnv1a (KeyCell.cstr key).bytes
  else tenFnv1a ((KeyCell.raw key).take map.keySize)

/-- `ten__map_key_equals`. -/
def tenMapKeyEquals (map : TenMap K V) (storedKey queryKey : K) : Bool :=
  if map.keyType = .string then KeyCell.cstr storedKey = KeyCell.cstr queryKey
  else (KeyCell.raw storedKey).take map.keySize = (KeyCell.raw queryKey).take map.keySize

/-- The test of the chain walks in `ten__map_find` and `ten_map_remove`. -/
def tenMapMatches (map : TenMap K V) (hash : UInt64) (key : K) (entry : MapEntry K V) : Bool :=
  entry.hash == hash && tenMapKeyEquals map entry.key key

/-- `ten__map_find`. -/
def tenMapFind (map : TenMap K V) (key : K) : Option (MapEntry K V) :=
  let hash := tenMapHash map key
  let bucket := hash.toNat % map.bucketCount
  (map.buckets.getD bucket []).find? (tenMapMatches map hash key)

/-- The keys that the walk of `ten__map_find` along a chain compares with the key
it is given. -/
def comparedKeys (map : TenMap K V) (hash : UInt64) (key : K) : List (MapEntry K V) → List K
  | [] => []
  | entry :: rest =>
      if entry.hash = hash then
        if tenMapKeyEquals map entry.key key then [entry.key]
        else entry.key :: comparedKeys map hash key rest
      else comparedKeys map hash key rest

/-- The keys that `ten__map_find` compares with the key it is given. -/
def tenMapCompared (map : TenMap K V) (key : K) : List K :=
  let hash := tenMapHash map key
  let bucket := hash.toNat % map.bucketCount
  comparedKeys map hash key (map.buckets.getD bucket [])

/-- `ten__map_rehash`. -/
def tenMapRehash (map : TenMap K V) (newBucketCount : Nat) :
    Ten (TenErrorCode × TenMap K V) := do
  let some _ ← tenCalloc
    | return (.outOfMemory, map)
  let newBuckets := redistribute (fun entry => entry.hash.toNat) newBucketCount map.buckets
  return (.ok, { map with buckets := newBuckets, bucketCount := newBucketCount })

/-- `ten_map_create`. -/
def tenMapCreate (keyType valueType : TenType) : Ten (Option (TenMap K V)) := do
  let keySize := tenTypeSize keyType
  let valueSize := tenTypeSize valueType
  if keySize = 0 ∨ valueSize = 0 then
    tenSetError .invalidArgument
    return none
  else
    let some _ ← tenMalloc
      | return none
    let some _ ← tenCalloc
      | return none
    tenSetError .ok
    return some
      { keyType, valueType, keySize, valueSize
        buckets := List.replicate tenMapInitialBuckets []
        bucketCount := tenMapInitialBuckets
        count := 0 }

/-- `memcpy(entry->value, value, map->value_size)` for the first entry of the
chain that matches. -/
def overwriteFirst (isMatch : MapEntry K V → Bool) (value : V) :
    List (MapEntry K V) → List (MapEntry K V)
  | [] => []
  | entry :: rest =>
      if isMatch entry then { entry with value := value } :: rest
      else entry :: overwriteFirst isMatch value rest

/-- The last part of `ten_map_set`: the entry, its copy of the key and its
copy of the value are allocated, then the entry is linked in. -/
def tenMapSetNew (map : TenMap K V) (key : K) (value : V) : Ten (TenErrorCode × TenMap K V) := do
  let some _ ← tenMalloc
    | return (.outOfMemory, map)
  let some _ ← tenMalloc
    | return (.outOfMemory, map)
  let some _ ← tenMalloc
    | return (.outOfMemory, map)
  let hash := tenMapHash map key
  let bucket := hash.toNat % map.bucketCount
  let entry : MapEntry K V := { hash, key, value }
  tenSetError .ok
  return (.ok,
    { map with
      buckets := map.buckets.modify bucket (entry :: ·)
      count := map.count + 1 })

/-- `ten_map_set`. -/
def tenMapSet (map : TenMap K V) (key : Option K) (value : Option V) :
    Ten (TenErrorCode × TenMap K V) :=
  match key, value with
  | some key, some value =>
      match tenMapFind map key with
      | some _ => do
          let hash := tenMapHash map key
          let bucket := hash.toNat % map.bucketCount
          let buckets := map.buckets.modify bucket
            (overwriteFirst (tenMapMatches map hash key) value)
          tenSetError .ok
          return (.ok, { map with buckets })
      | none =>
          if map.count + 1 > map.bucketCount * 3 / 4 then do
            let (rc, map) ← tenMapRehash map (map.bucketCount * 2)
            if rc ≠ .ok then
              tenSetError rc
              return (rc, map)
            else
              tenMapSetNew map key value
          else tenMapSetNew map key value
  | _, _ => do
      tenSetError .nullArgument
      return (.nullArgument, map)

/-- `ten_map_get`: the value the returned pointer points to, or NULL. -/
def tenMapGet (map : TenMap K V) (key : Option K) : Ten (Option V) :=
  match key with
  | some key => do
      match tenMapFind map key with
      | none =>
          tenSetError .notFound
          return none
      | some entry =>
          tenSetError .ok
          return some entry.value
  | none => do
      tenSetError .nullArgument
      return none

/-- The walk of `ten_map_remove` along a chain: the chain without its first
matching entry. -/
def unlinkFirst (isMatch : MapEntry K V → Bool) :
    List (MapEntry K V) → Option (List (MapEntry K V))
  | [] => none
  | entry :: rest =>
      if isMatch entry then some rest
      else (unlinkFirst isMatch rest).map (entry :: ·)

/-- `ten_map_remove`. -/
def tenMapRemove (map : TenMap K V) (key : Option K) : Ten (TenErrorCode × TenMap K V) :=
  match key with
  | some key => do
      let hash := tenMapHash map key
      let bucket := hash.toNat % map.bucketCount
      match unlinkFirst (tenMapMatches map hash key) (map.buckets.getD bucket []) with
      | some chain =>
          tenSetError .ok
          return (.ok,
            { map with
              buckets := map.buckets.modify bucket (fun _ => chain)
              count := map.count - 1 })
      | none =>
          tenSetError .notFound
          return (.notFound, map)
  | none => do
      tenSetError .nullArgument
      return (.nullArgument, map)

/-- `ten_map_contains`. -/
def tenMapContains (map : TenMap K V) (key : Option K) : Ten Bool :=
  match key with
  | some key => do
      tenSetError .ok
      return (tenMapFind map key).isSome
  | none => do
      tenSetError .nullArgument
      return false

/-- `ten_map_count`. -/
def tenMapCount (map : TenMap K V) : Ten Nat := do
  tenSetError .ok
  return map.count

end Functions

end Dotten
