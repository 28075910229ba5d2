/-
Module: Dotten.Memory.OwnedMap
Layer: Memory
Purpose: The chained hash table of map.c with its blocks: the struct, the bucket
  array, and for each entry the entry, its copy of the key and its copy of the
  value.  A lookup reads the strings that the keys in its chain point to.
Imports: Dotten.Memory.OwnedList, Dotten.Containers.TenMapCalls
Main exports: KeyTargets, Cell, OwnedMap, OwnedMap.blocks, OwnedMap.Readable,
  Heap.findChain, Heap.tenMapFind, Heap.tenMapRehash, Heap.tenMapCreate,
  Heap.tenMapDestroy, Heap.tenMapSet, Heap.tenMapGet, Heap.tenMapRemove
-/
import Dotten.Memory.OwnedList
import Dotten.Containers.TenMapCalls

namespace Dotten

open Dotten.Library
open Dotten.Library.BucketTable

/-- The blocks that are read when a key cell is followed as a pointer to a
string. -/
class KeyTargets (K : Type) where
  targets : K → List Nat

instance : KeyTargets CharPtr where
  targets pointer := [pointer.addr]

/-- The blocks of a `ten_map_entry_t *`, and what its copy of the value
holds. -/
structure Cell (V : Type) where
  entry : Nat
  key : Nat
  value : Nat
  content : V
deriving DecidableEq, Repr

/-- The three blocks of an entry. -/
def Cell.blocks {V : Type} (cell : Cell V) : Multiset Nat := {cell.entry} + {cell.key} + {cell.value}

/-- A `ten_map_t *`: the block of the struct, the block of the bucket array, and
the fields. -/
structure OwnedMap (K V : Type) where
  self : Nat
  buckets : Nat
  map : TenMap K (Cell V)
deriving DecidableEq, Repr

namespace OwnedMap

variable {K V : Type}

/-- The blocks of the entries of a table. -/
def entryBlocks (entries : List (MapEntry K (Cell V))) : Multiset Nat :=
  (entries.map fun entry => entry.value.blocks).sum

/-- The blocks of a map; what its values own is not among them. -/
def blocks (owned : OwnedMap K V) : Multiset Nat :=
  {owned.self} + {owned.buckets} + entryBlocks owned.map.buckets.flatten

/-- The blocks that a comparison with a key cell reads. -/
def targets [KeyTargets K] (owned : OwnedMap K V) (key : K) : List Nat :=
  if owned.map.keyType = .string then KeyTargets.targets key else []

/-- A lookup of the key reads strings that are there: its own, and those of the
keys with its hash. -/
structure Readable [KeyCell K] [KeyTargets K] (owned : OwnedMap K V) (key : K)
    (given : Multiset Nat) : Prop where
  query : ∀ target ∈ owned.targets key, target ∈ given
  stored : ∀ entry ∈ owned.map.buckets.flatten, entry.hash = tenMapHash owned.map key →
    ∀ target ∈ owned.targets entry.key, target ∈ given

theorem entryBlocks_perm {left right : List (MapEntry K (Cell V))} (same : left.Perm right) :
    entryBlocks left = entryBlocks right :=
  (same.map _).sum_eq

theorem entryBlocks_cons (entry : MapEntry K (Cell V)) (rest : List (MapEntry K (Cell V))) :
    entryBlocks (entry :: rest) = entry.value.blocks + entryBlocks rest := by
  rw [entryBlocks, List.map_cons, List.sum_cons]
  rfl

/-- The blocks of an entry are blocks of the map. -/
theorem cell_le {owned : OwnedMap K V} {entry : MapEntry K (Cell V)}
    (member : entry ∈ owned.map.buckets.flatten) : entry.value.blocks ≤ owned.blocks := by
  obtain ⟨front, back, split⟩ := List.append_of_mem member
  have moved : (owned.map.buckets.flatten).Perm (entry :: (front ++ back)) := by
    rw [split]
    exact List.perm_middle
  rw [blocks, entryBlocks_perm moved, entryBlocks_cons]
  exact (Multiset.le_add_right _ _).trans (Multiset.le_add_left _ _)

@[simp] theorem self_mem (owned : OwnedMap K V) : owned.self ∈ owned.blocks := by
  simp [blocks]

@[simp] theorem buckets_mem (owned : OwnedMap K V) : owned.buckets ∈ owned.blocks := by
  simp [blocks]

theorem Readable.mono [KeyCell K] [KeyTargets K] {owned : OwnedMap K V} {key : K}
    {given more : Multiset Nat} (readable : owned.Readable key given) (le : given ≤ more) :
    owned.Readable key more :=
  ⟨fun target member => Multiset.mem_of_le le (readable.query target member),
    fun entry member same target found =>
      Multiset.mem_of_le le (readable.stored entry member same target found)⟩

end OwnedMap

namespace Heap

section Functions

variable {K V : Type} [KeyCell K] [KeyTargets K]

/-- `ten__map_hash`. -/
def tenMapHash (owned : OwnedMap K V) (key : K) : Op UInt64 := do
  access owned.self
  (owned.targets key).forM access
  return Dotten.tenMapHash owned.map key

/-- `ten__map_key_equals`. -/
def tenMapKeyEquals (owned : OwnedMap K V) (stored : MapEntry K (Cell V)) (query : K) :
    Op Bool := do
  access owned.self
  access stored.value.key
  (owned.targets stored.key).forM access
  (owned.targets query).forM access
  return Dotten.tenMapKeyEquals owned.map stored.key query

/-- The walk along a chain in `ten__map_find` and `ten_map_remove`.  The keys are
compared only where the hashes are equal. -/
def findChain (owned : OwnedMap K V) (hash : UInt64) (key : K) :
    List (MapEntry K (Cell V)) → Op (Option (MapEntry K (Cell V)))
  | [] => return none
  | entry :: rest => do
      access entry.value.entry
      if entry.hash = hash then
        let equal ← tenMapKeyEquals owned entry key
        if equal then return some entry else findChain owned hash key rest
      else
        findChain owned hash key rest

/-- `ten__map_find`. -/
def tenMapFind (owned : OwnedMap K V) (key : K) : Op (Option (MapEntry K (Cell V))) := do
  let hash ← tenMapHash owned key
  let bucket := hash.toNat % owned.map.bucketCount
  access owned.buckets
  findChain owned hash key (owned.map.buckets.getD bucket [])

/-- `ten__map_rehash`. -/
def tenMapRehash (owned : OwnedMap K V) (newBucketCount : Nat) :
    Op (TenErrorCode × OwnedMap K V) := do
  let some buckets ← tenCalloc
    | return (.outOfMemory, owned)
  access owned.self
  access owned.buckets
  owned.map.buckets.flatten.forM fun entry => access entry.value.entry
  let newBuckets := redistribute (fun entry => entry.hash.toNat) newBucketCount owned.map.buckets
  tenFree (some owned.buckets)
  return (.ok,
    { owned with
      buckets, map := { owned.map with buckets := newBuckets, bucketCount := newBucketCount } })

/-- `ten_map_create`. -/
def tenMapCreate (keyType valueType : TenType) : Op (Option (OwnedMap K V)) := do
  let keySize := tenTypeSize keyType
  let valueSize := tenTypeSize valueType
  if keySize = 0 ∨ valueSize = 0 then
    tenSetError .invalidArgument
    return none
  else
    let some self ← tenMalloc
      | return none
    let some buckets ← tenCalloc
      | do
        tenFree (some self)
        return none
    tenSetError .ok
    return some
      { self, buckets
        map :=
          { keyType, valueType, keySize, valueSize
            buckets := List.replicate tenMapInitialBuckets []
            bucketCount := tenMapInitialBuckets
            count := 0 } }

/-- The body of the loops of `ten_map_destroy`. -/
def destroyEntry (entry : MapEntry K (Cell V)) : Op PUnit := do
  access entry.value.entry
  tenFree (some entry.value.key)
  tenFree (some entry.value.value)
  tenFree (some entry.value.entry)

/-- `ten_map_destroy`. -/
def tenMapDestroy (owned : Option (OwnedMap K V)) : Op Unit :=
  match owned with
  | none => return ()
  | some owned => do
      access owned.self
      access owned.buckets
      owned.map.buckets.flatten.forM destroyEntry
      tenFree (some owned.buckets)
      tenFree (some owned.self)

/-- The last part of `ten_map_set`. -/
def tenMapSetNew (owned : OwnedMap K V) (key : K) (content : V) :
    Op (TenErrorCode × OwnedMap K V) := do
  let some entry ← tenMalloc
    | return (.outOfMemory, owned)
  let some keyCopy ← tenMalloc
    | do
      tenFree (some entry)
      return (.outOfMemory, owned)
  let some value ← tenMalloc
    | do
      tenFree (some keyCopy)
      tenFree (some entry)
      return (.outOfMemory, owned)
  let hash ← tenMapHash owned key
  let bucket := hash.toNat % owned.map.bucketCount
  let linked : MapEntry K (Cell V) := { hash, key, value := { entry, key := keyCopy, value, content } }
  access owned.buckets
  tenSetError .ok
  return (.ok,
    { owned with
      map :=
        { owned.map with
          buckets := owned.map.buckets.modify bucket (linked :: ·)
          count := owned.map.count + 1 } })

/-- `ten_map_set`. -/
def tenMapSet (owned : OwnedMap K V) (key : K) (content : V) :
    Op (TenErrorCode × OwnedMap K V) := do
  match ← tenMapFind owned key with
  | some entry =>
      access entry.value.value
      let hash := Dotten.tenMapHash owned.map key
      let bucket := hash.toNat % owned.map.bucketCount
      let buckets := owned.map.buckets.modify bucket
        (overwriteFirst (tenMapMatches owned.map hash key) { entry.value with content })
      tenSetError .ok
      return (.ok, { owned with map := { owned.map with buckets } })
  | none =>
      access owned.self
      if owned.map.count + 1 > owned.map.bucketCount * 3 / 4 then
        let (rc, owned) ← tenMapRehash owned (owned.map.bucketCount * 2)
        if rc ≠ .ok then
          tenSetError rc
          return (rc, owned)
        else
          tenMapSetNew owned key content
      else tenMapSetNew owned key content

/-- `ten_map_get`, and the read through the pointer that it returns. -/
def tenMapGet (owned : OwnedMap K V) (key : K) : Op (Option V) := do
  match ← tenMapFind owned key with
  | none =>
      tenSetError .notFound
      return none
  | some entry =>
      tenSetError .ok
      access entry.value.value
      return some entry.value.content

/-- `ten_map_remove`. -/
def tenMapRemove (owned : OwnedMap K V) (key : K) : Op (TenErrorCode × OwnedMap K V) := do
  let hash ← tenMapHash owned key
  let bucket := hash.toNat % owned.map.bucketCount
  access owned.buckets
  match ← findChain owned hash key (owned.map.buckets.getD bucket []) with
  | some entry =>
      let chain := (unlinkFirst (tenMapMatches owned.map hash key)
        (owned.map.buckets.getD bucket [])).getD []
      tenFree (some entry.value.key)
      tenFree (some entry.value.value)
      tenFree (some entry.value.entry)
      tenSetError .ok
      return (.ok,
        { owned with
          map :=
            { owned.map with
              buckets := owned.map.buckets.modify bucket (fun _ => chain)
              count := owned.map.count - 1 } })
  | none =>
      tenSetError .notFound
      return (.notFound, owned)

end Functions

section Entries

variable {K V : Type}

theorem flatten_emptyBuckets :
    (List.replicate tenMapInitialBuckets ([] : List (MapEntry K V))).flatten = [] := by
  simp

variable [KeyCell K]

/-- A table without entries satisfies the invariant. -/
theorem tenMap_valid_of_empty {map : TenMap K V}
    (buckets : map.buckets = List.replicate map.bucketCount []) (count : map.count = 0)
    (positive : 0 < map.bucketCount) : map.Valid := by
  have none : map.entries = [] := by
    rw [TenMap.entries, buckets]
    simp
  constructor
  · exact positive
  · rw [buckets, List.length_replicate]
  · rw [buckets]
    exact placed_replicate _
  · rw [none]
    exact List.forall_mem_nil _
  · rw [none]
    exact List.nodup_nil
  · rw [none, count]
    rfl
  · rw [count]
    exact Nat.zero_le _

end Entries

section Lifetime

variable {K V : Type} {grants : Schedule}

theorem owns_destroyEntry (entry : MapEntry K (Cell V)) :
    Owns grants entry.value.blocks (destroyEntry entry) (fun _ => 0) fun _ => True := by
  have entryHeld : entry.value.entry ∈ entry.value.blocks := by simp [Cell.blocks]
  refine Transfers.bind (owns_access entryHeld) ?_
  rintro ⟨⟩ -
  refine Transfers.call ({entry.value.entry} + {entry.value.value})
    (owns_tenFree (some entry.value.key)) ?_ ?_
  · simp only [Cell.blocks, ofPointer_some]
    abel
  rintro ⟨⟩ -
  refine Transfers.call {entry.value.entry} (owns_tenFree (some entry.value.value)) ?_ ?_
  · simp only [ofPointer_some]
    abel
  rintro ⟨⟩ -
  exact (owns_tenFree (some entry.value.entry)).conseq (by simp) (fun _ _ => rfl)
    fun _ _ => trivial

/-- Destroying a map frees its blocks, and nothing of its values. -/
theorem owns_tenMapDestroy (owned : Option (OwnedMap K V)) :
    Owns grants (ownsOption OwnedMap.blocks owned) (tenMapDestroy owned) (fun _ => 0)
      fun _ => True := by
  cases owned with
  | none => exact Transfers.pure rfl trivial
  | some owned =>
      refine Transfers.bind (owns_access owned.self_mem) ?_
      rintro ⟨⟩ -
      refine Transfers.bind (owns_access owned.buckets_mem) ?_
      rintro ⟨⟩ -
      refine Transfers.call ({owned.self} + {owned.buckets})
        (Transfers.forM fun entry _ => owns_destroyEntry entry) ?_ ?_
      · rw [ownsOption_some, OwnedMap.blocks, OwnedMap.entryBlocks, add_comm]
      rintro ⟨⟩ -
      refine Transfers.call {owned.self} (owns_tenFree (some owned.buckets)) ?_ ?_
      · simp only [ofPointer_some]
        abel
      rintro ⟨⟩ -
      exact (owns_tenFree (some owned.self)).conseq (by simp) (fun _ _ => rfl) fun _ _ => trivial

variable [KeyCell K]

/-- An empty map, which owns its struct and its bucket array. -/
theorem owns_tenMapCreate (keyType valueType : TenType) :
    Owns grants 0 (tenMapCreate (K := K) (V := V) keyType valueType)
      (ownsOption OwnedMap.blocks)
      (fun reply => ∀ owned, reply = some owned →
        owned.map.Valid ∧ owned.map.entries = [] ∧ owned.map.keyType = keyType) := by
  refine Transfers.ite (fun _ => ?_) fun _ => ?_
  · refine Transfers.bind (owns_tenSetError _) ?_
    rintro ⟨⟩ -
    exact Transfers.pure rfl (by simp)
  · refine Transfers.bind owns_tenMalloc ?_
    rintro (_ | self) -
    · exact Transfers.pure rfl (by simp)
    · refine Transfers.call {self} owns_tenMalloc (by simp) ?_
      rintro (_ | buckets) -
      · refine Transfers.call 0 (owns_tenFree (some self)) (by simp) ?_
        rintro ⟨⟩ -
        exact Transfers.pure rfl (by simp)
      · refine Transfers.bind (owns_tenSetError _) ?_
        rintro ⟨⟩ -
        refine Transfers.pure ?_ ?_
        · simp [OwnedMap.blocks, OwnedMap.entryBlocks, add_comm]
        · rintro owned ⟨⟩
          exact ⟨tenMap_valid_of_empty rfl rfl (Nat.succ_pos _), flatten_emptyBuckets, rfl⟩

end Lifetime

section Ownership

variable {K V : Type} [KeyCell K] [KeyTargets K] {grants : Schedule} {given : Multiset Nat}
  {owned : OwnedMap K V} {key : K}

theorem owns_forM_targets {targets : List Nat} (held : ∀ target ∈ targets, target ∈ given) :
    Owns grants given (targets.forM access) (fun _ => given) fun _ => True :=
  Transfers.forM_keep fun target member => owns_access (held target member)

theorem owns_tenMapHash (self : owned.self ∈ given)
    (query : ∀ target ∈ owned.targets key, target ∈ given) :
    Owns grants given (tenMapHash owned key) (fun _ => given)
      (· = Dotten.tenMapHash owned.map key) := by
  refine Transfers.bind (owns_access self) ?_
  rintro ⟨⟩ -
  refine Transfers.bind (owns_forM_targets query) ?_
  rintro ⟨⟩ -
  exact Transfers.pure rfl rfl

theorem owns_tenMapKeyEquals {stored : MapEntry K (Cell V)} (self : owned.self ∈ given)
    (cell : stored.value.key ∈ given) (there : ∀ target ∈ owned.targets stored.key, target ∈ given)
    (query : ∀ target ∈ owned.targets key, target ∈ given) :
    Owns grants given (tenMapKeyEquals owned stored key) (fun _ => given)
      (· = Dotten.tenMapKeyEquals owned.map stored.key key) := by
  refine Transfers.bind (owns_access self) ?_
  rintro ⟨⟩ -
  refine Transfers.bind (owns_access cell) ?_
  rintro ⟨⟩ -
  refine Transfers.bind (owns_forM_targets there) ?_
  rintro ⟨⟩ -
  refine Transfers.bind (owns_forM_targets query) ?_
  rintro ⟨⟩ -
  exact Transfers.pure rfl rfl

/-- The walk along a chain finds the first entry that matches, and reads the
strings of the keys with the hash only. -/
theorem owns_findChain {hash : UInt64} (self : owned.self ∈ given)
    (query : ∀ target ∈ owned.targets key, target ∈ given) :
    ∀ chain : List (MapEntry K (Cell V)), (∀ entry ∈ chain, entry.value.blocks ≤ given) →
      (∀ entry ∈ chain, entry.hash = hash →
        ∀ target ∈ owned.targets entry.key, target ∈ given) →
      Owns grants given (findChain owned hash key chain) (fun _ => given)
        (· = chain.find? (tenMapMatches owned.map hash key)) := by
  intro chain
  induction chain with
  | nil => exact fun _ _ => Transfers.pure rfl rfl
  | cons entry rest inductionHypothesis =>
      intro cells stored
      have walkOn := inductionHypothesis
        (fun other member => cells other (List.mem_cons_of_mem _ member))
        (fun other member => stored other (List.mem_cons_of_mem _ member))
      have cell := cells entry List.mem_cons_self
      have entryHeld : entry.value.entry ∈ given := Multiset.mem_of_le cell (by simp [Cell.blocks])
      have keyHeld : entry.value.key ∈ given := Multiset.mem_of_le cell (by simp [Cell.blocks])
      refine Transfers.bind (owns_access entryHeld) ?_
      rintro ⟨⟩ -
      refine Transfers.ite (fun sameHash => ?_) fun apart => ?_
      · refine Transfers.bind
          (owns_tenMapKeyEquals self keyHeld (stored entry List.mem_cons_self sameHash) query) ?_
        rintro equal rfl
        refine Transfers.ite (fun equal => ?_) fun different => ?_
        · refine Transfers.pure rfl ?_
          rw [List.find?_cons_of_pos]
          rw [tenMapMatches, sameHash, beq_self_eq_true, equal]
          rfl
        · rw [List.find?_cons_of_neg]
          · exact walkOn
          · rw [tenMapMatches, Bool.and_eq_true]
            exact fun both => different both.2
      · rw [List.find?_cons_of_neg]
        · exact walkOn
        · rw [tenMapMatches, Bool.and_eq_true, beq_iff_eq]
          exact fun both => apart both.1

theorem owns_findChain_getD {given : Multiset Nat} (held : owned.blocks ≤ given)
    (readable : owned.Readable key given) (slot : Nat) :
    Owns grants given
      (findChain owned (Dotten.tenMapHash owned.map key) key (owned.map.buckets.getD slot []))
      (fun _ => given)
      (· = (owned.map.buckets.getD slot []).find?
        (tenMapMatches owned.map (Dotten.tenMapHash owned.map key) key)) := by
  have listed : ∀ entry ∈ owned.map.buckets.getD slot [],
      entry ∈ owned.map.buckets.flatten := by
    intro entry member
    rw [List.getD_eq_getElem?_getD] at member
    cases located : owned.map.buckets[slot]? with
    | none =>
        rw [located] at member
        cases member
    | some chain =>
        rw [located] at member
        exact List.mem_flatten.mpr ⟨chain, List.mem_of_getElem? located, member⟩
  refine owns_findChain (Multiset.mem_of_le held owned.self_mem) readable.query _ ?_ ?_
  · exact fun entry member => (OwnedMap.cell_le (listed entry member)).trans held
  · exact fun entry member same => readable.stored entry (listed entry member) same

/-- A lookup leaves every block in place, and finds what the plain lookup
finds. -/
theorem owns_tenMapFind (held : owned.blocks ≤ given) (readable : owned.Readable key given) :
    Owns grants given (tenMapFind owned key) (fun _ => given)
      (· = Dotten.tenMapFind owned.map key) := by
  refine Transfers.bind
    (owns_tenMapHash (Multiset.mem_of_le held owned.self_mem) readable.query) ?_
  rintro hash rfl
  refine Transfers.bind (owns_access (Multiset.mem_of_le held owned.buckets_mem)) ?_
  rintro ⟨⟩ -
  exact owns_findChain_getD held readable _

theorem owns_tenMapGet (held : owned.blocks ≤ given) (readable : owned.Readable key given) :
    Owns grants given (tenMapGet owned key) (fun _ => given)
      (· = (Dotten.tenMapFind owned.map key).map fun entry => entry.value.content) := by
  refine Transfers.bind (owns_tenMapFind held readable) ?_
  rintro reply rfl
  cases found : Dotten.tenMapFind owned.map key with
  | none =>
      refine Transfers.bind (owns_tenSetError _) ?_
      rintro ⟨⟩ -
      exact Transfers.pure rfl rfl
  | some entry =>
      have cell := (OwnedMap.cell_le (mem_of_tenMapFind found)).trans held
      have valueHeld : entry.value.value ∈ given :=
        Multiset.mem_of_le cell (by simp [Cell.blocks])
      refine Transfers.bind (owns_tenSetError _) ?_
      rintro ⟨⟩ -
      refine Transfers.bind (owns_access valueHeld) ?_
      rintro ⟨⟩ -
      exact Transfers.pure rfl rfl

end Ownership

end Heap

end Dotten
