/-
Module: Dotten.Memory.OwnedMapCalls
Layer: Memory
Purpose: What the functions of map.c that change a map do to its entries and to
  its blocks, whichever allocations are refused: the map owns the blocks of its
  entries, no more and no fewer.
Imports: Dotten.Memory.OwnedMap
Main exports: OwnedMap.SetFact, OwnedMap.RemoveFact, Heap.owns_tenMapRehash,
  Heap.owns_tenMapSetNew, Heap.owns_tenMapSet, Heap.owns_tenMapRemove
-/
import Dotten.Memory.OwnedMap

namespace Dotten

open Dotten.Library
open Dotten.Library.BucketTable

namespace OwnedMap

variable {K V : Type} [KeyCell K]

/-- What `ten_map_set` may do to the entries of a map. -/
inductive SetFact (owned : OwnedMap K V) (key : K) (content : V) :
    TenErrorCode × OwnedMap K V → Prop where
  /-- The entry of the key keeps its blocks. -/
  | overwritten {after : OwnedMap K V} {entry : MapEntry K (Cell V)}
      (found : tenMapFind owned.map key = some entry) (valid : after.map.Valid)
      (alike : after.map.Alike owned.map)
      (entries : after.map.entries.Perm (owned.map.entries.map fun other =>
        if owned.map.keyBytes other.key = owned.map.keyBytes key then
          { other with value := { entry.value with content } }
        else other)) :
      SetFact owned key content (.ok, after)
  | inserted {after : OwnedMap K V} {cell : Cell V}
      (absent : tenMapFind owned.map key = none) (holds : cell.content = content)
      (valid : after.map.Valid) (alike : after.map.Alike owned.map)
      (entries : after.map.entries.Perm
        ({ hash := tenMapHash owned.map key, key, value := cell } :: owned.map.entries)) :
      SetFact owned key content (.ok, after)
  | refused {after : OwnedMap K V} (absent : tenMapFind owned.map key = none)
      (valid : after.map.Valid) (alike : after.map.Alike owned.map)
      (entries : after.map.entries.Perm owned.map.entries) :
      SetFact owned key content (.outOfMemory, after)

/-- What `ten_map_remove` does to the entries of a map. -/
inductive RemoveFact (owned : OwnedMap K V) (key : K) : TenErrorCode × OwnedMap K V → Prop where
  | removed {after : OwnedMap K V} {entry : MapEntry K (Cell V)}
      (found : tenMapFind owned.map key = some entry) (valid : after.map.Valid)
      (alike : after.map.Alike owned.map)
      (entries : owned.map.entries.Perm (entry :: after.map.entries)) :
      RemoveFact owned key (.ok, after)
  | missing (absent : tenMapFind owned.map key = none) : RemoveFact owned key (.notFound, owned)

end OwnedMap

section Tables

variable {K V : Type} [KeyCell K]

/-- The entry that a lookup finds, and all others. -/
theorem TenMap.Valid.entries_perm_of_find {map : TenMap K V} (valid : map.Valid) {key : K}
    {entry : MapEntry K V} (found : tenMapFind map key = some entry) :
    map.entries.Perm
      (entry :: map.entries.filter fun other => map.keyBytes other.key ≠ map.keyBytes key) := by
  obtain ⟨member, same⟩ := valid.find_eq_some found
  obtain ⟨front, back, split⟩ := List.append_of_mem member
  have distinct := valid.distinct
  rw [split, List.map_append, List.map_cons, List.nodup_middle, List.nodup_cons,
    ← List.map_append] at distinct
  have kept : (front ++ back).filter
      (fun other => map.keyBytes other.key ≠ map.keyBytes key) = front ++ back := by
    rw [List.filter_eq_self]
    intro other inside
    rw [decide_eq_true_iff]
    intro alike
    exact distinct.1 (List.mem_map.mpr ⟨other, inside, alike.trans same.symm⟩)
  have filtered : map.entries.filter
      (fun other => map.keyBytes other.key ≠ map.keyBytes key) = front ++ back := by
    rw [split, List.filter_append, List.filter_cons_of_neg (by simpa using same),
      ← List.filter_append, kept]
  rw [filtered, split]
  exact List.perm_middle

/-- The entries after the one that a lookup finds has a new value. -/
theorem TenMap.Valid.overwritten_perm {map : TenMap K V} (valid : map.Valid) {key : K}
    {entry : MapEntry K V} (found : tenMapFind map key = some entry) (value : V) :
    (map.entries.map fun other =>
        if map.keyBytes other.key = map.keyBytes key then { other with value := value }
        else other).Perm
      ({ entry with value := value } ::
        map.entries.filter fun other => map.keyBytes other.key ≠ map.keyBytes key) := by
  refine ((valid.entries_perm_of_find found).map _).trans (List.Perm.of_eq ?_)
  rw [List.map_cons, if_pos (valid.find_eq_some found).2]
  congr 1
  refine (List.map_congr_left fun other member => ?_).trans (List.map_id _)
  exact if_neg (of_decide_eq_true (List.mem_filter.mp member).2)

/-- A lookup fails where no entry has the key. -/
theorem TenMap.Valid.find_eq_none_of_absent {map : TenMap K V} (valid : map.Valid) {key : K}
    (absent : ∀ entry ∈ map.entries, map.keyBytes entry.key ≠ map.keyBytes key) :
    tenMapFind map key = none := by
  cases found : tenMapFind map key with
  | none => rfl
  | some entry =>
      obtain ⟨member, same⟩ := valid.find_eq_some found
      exact absurd same (absent entry member)

end Tables

namespace Heap

section Ownership

variable {K V : Type} [KeyCell K] {grants : Schedule} {owned : OwnedMap K V}

/-- `ten__map_rehash`: the entries move to a new bucket array, which takes the
place of the old one, or nothing changes. -/
theorem owns_tenMapRehash (valid : owned.map.Valid) {newBucketCount : Nat}
    (grows : owned.map.bucketCount ≤ newBucketCount) :
    Owns grants owned.blocks (tenMapRehash owned newBucketCount) (fun reply => reply.2.blocks)
      (fun reply => (reply.1 = .ok ∧ reply.2.map.Valid ∧ reply.2.map.Alike owned.map ∧
          reply.2.map.entries.Perm owned.map.entries ∧ reply.2.map.count = owned.map.count ∧
          reply.2.map.bucketCount = newBucketCount) ∨
        reply = (.outOfMemory, owned)) := by
  obtain ⟨stillValid, moved⟩ := valid.rehashed grows
  refine Transfers.call owned.blocks owns_tenMalloc (zero_add _).symm ?_
  rintro (_ | buckets) -
  · exact Transfers.pure (zero_add _) (.inr rfl)
  have selfHeld : owned.self ∈ ofPointer (some buckets) + owned.blocks :=
    Multiset.mem_add.mpr (.inr owned.self_mem)
  have bucketsHeld : owned.buckets ∈ ofPointer (some buckets) + owned.blocks :=
    Multiset.mem_add.mpr (.inr owned.buckets_mem)
  refine Transfers.bind (owns_access selfHeld) ?_
  rintro ⟨⟩ -
  refine Transfers.bind (owns_access bucketsHeld) ?_
  rintro ⟨⟩ -
  refine Transfers.bind (Transfers.forM_keep fun entry member => owns_access ?_) ?_
  · have cell := OwnedMap.cell_le member
    exact Multiset.mem_add.mpr (.inr (Multiset.mem_of_le cell (by simp [Cell.blocks])))
  rintro ⟨⟩ -
  refine Transfers.call
    ({buckets} + ({owned.self} + OwnedMap.entryBlocks owned.map.buckets.flatten))
    (owns_tenFree (some owned.buckets)) ?_ ?_
  · simp only [OwnedMap.blocks, ofPointer_some]
    abel
  rintro ⟨⟩ -
  refine Transfers.pure ?_ (.inl ⟨rfl, stillValid, ⟨rfl, rfl⟩, moved, rfl, rfl⟩)
  have cells := OwnedMap.entryBlocks_perm moved
  simp only [OwnedMap.blocks]
  rw [cells]
  change _ = {owned.self} + {buckets} + OwnedMap.entryBlocks owned.map.buckets.flatten
  abel

variable {key : K}

/-- Rewriting the value of an entry in place changes no block. -/
theorem entryBlocks_overwritten (valid : owned.map.Valid) {entry : MapEntry K (Cell V)}
    (found : Dotten.tenMapFind owned.map key = some entry) (content : V) :
    OwnedMap.entryBlocks (owned.map.entries.map fun other =>
      if owned.map.keyBytes other.key = owned.map.keyBytes key then
        { other with value := { entry.value with content } }
      else other) = OwnedMap.entryBlocks owned.map.entries := by
  rw [OwnedMap.entryBlocks_perm (valid.overwritten_perm found { entry.value with content }),
    OwnedMap.entryBlocks_perm (valid.entries_perm_of_find found),
    OwnedMap.entryBlocks_cons, OwnedMap.entryBlocks_cons]
  rfl

/-- What follows a rehash follows the call. -/
theorem setFact_of_rehashed (valid : owned.map.Valid) {rehashed : OwnedMap K V} {content : V}
    {reply : TenErrorCode × OwnedMap K V} (alike : rehashed.map.Alike owned.map)
    (moved : rehashed.map.entries.Perm owned.map.entries)
    (absent : ∀ entry ∈ owned.map.entries,
      owned.map.keyBytes entry.key ≠ owned.map.keyBytes key)
    (fact : rehashed.SetFact key content reply) (rehashedValid : rehashed.map.Valid) :
    owned.SetFact key content reply := by
  have missing := valid.find_eq_none_of_absent absent
  have sameHash : Dotten.tenMapHash rehashed.map key = Dotten.tenMapHash owned.map key := by
    rw [TenMap.hash_eq, TenMap.hash_eq, alike.keyBytes]
  cases fact with
  | overwritten found afterValid afterAlike entries =>
      obtain ⟨member, same⟩ := rehashedValid.find_eq_some found
      rw [alike.keyBytes] at same
      exact absurd same (absent _ (moved.mem_iff.mp member))
  | inserted _ holds afterValid afterAlike entries =>
      rw [sameHash] at entries
      exact .inserted missing holds afterValid
        ⟨afterAlike.keyType.trans alike.keyType, afterAlike.keySize.trans alike.keySize⟩
        (entries.trans (moved.cons _))
  | refused _ afterValid afterAlike entries =>
      exact .refused missing afterValid
        ⟨afterAlike.keyType.trans alike.keyType, afterAlike.keySize.trans alike.keySize⟩
        (entries.trans moved)

variable [KeyTargets K] {refs : Multiset Nat}

/-- The end of `ten_map_set`: three more blocks, or none. -/
theorem owns_tenMapSetNew (valid : owned.map.Valid) (readable : owned.Readable key refs)
    (content : V) (absent : ∀ entry ∈ owned.map.entries,
      owned.map.keyBytes entry.key ≠ owned.map.keyBytes key)
    (room : owned.map.count + 1 ≤ owned.map.bucketCount * 3 / 4) :
    Owns grants (owned.blocks + refs) (tenMapSetNew owned key content)
      (fun reply => reply.2.blocks + refs) (owned.SetFact key content) := by
  have missing := valid.find_eq_none_of_absent absent
  have unchanged : owned.SetFact key content (.outOfMemory, owned) :=
    .refused missing valid ⟨rfl, rfl⟩ (List.Perm.refl _)
  refine Transfers.call (owned.blocks + refs) owns_tenMalloc (zero_add _).symm ?_
  rintro (_ | entry) -
  · exact Transfers.pure (zero_add _) unchanged
  refine Transfers.call ({entry} + (owned.blocks + refs)) owns_tenMalloc
    (zero_add _).symm ?_
  rintro (_ | keyCopy) -
  · refine Transfers.call (owned.blocks + refs) (owns_tenFree (some entry))
      (zero_add _) ?_
    rintro ⟨⟩ -
    exact Transfers.pure (zero_add _) unchanged
  refine Transfers.call ({keyCopy} + ({entry} + (owned.blocks + refs))) owns_tenMalloc
    (zero_add _).symm ?_
  rintro (_ | value) -
  · refine Transfers.call ({entry} + (owned.blocks + refs))
      (owns_tenFree (some keyCopy)) (zero_add _) ?_
    rintro ⟨⟩ -
    refine Transfers.call (owned.blocks + refs) (owns_tenFree (some entry))
      (zero_add _) ?_
    rintro ⟨⟩ -
    exact Transfers.pure (zero_add _) unchanged
  have held : owned.blocks + refs ≤
      ofPointer (some value) + ({keyCopy} + ({entry} + (owned.blocks + refs))) :=
    (Multiset.le_add_left _ _).trans ((Multiset.le_add_left _ _).trans (Multiset.le_add_left _ _))
  refine Transfers.bind (owns_tenMapHash
    (Multiset.mem_of_le held (Multiset.mem_add.mpr (.inl owned.self_mem)))
    (fun target member => Multiset.mem_of_le held
      (Multiset.mem_add.mpr (.inr (readable.query target member))))) ?_
  rintro hash rfl
  refine Transfers.bind (owns_access
    (Multiset.mem_of_le held (Multiset.mem_add.mpr (.inl owned.buckets_mem)))) ?_
  rintro ⟨⟩ -
  refine Transfers.bind (owns_tenSetError _) ?_
  rintro ⟨⟩ -
  obtain ⟨linkedValid, grown⟩ :=
    valid.linked { entry, key := keyCopy, value, content } absent room
  refine Transfers.pure ?_ (.inserted missing rfl linkedValid ⟨rfl, rfl⟩ grown)
  have cells := OwnedMap.entryBlocks_perm grown
  rw [OwnedMap.entryBlocks_cons] at cells
  simp only [OwnedMap.blocks, ofPointer_some]
  rw [cells]
  simp only [Cell.blocks, TenMap.entries]
  abel

/-- A rehash does not change which strings a lookup reads. -/
theorem readable_of_rehashed {rehashed : OwnedMap K V} (readable : owned.Readable key refs)
    (alike : rehashed.map.Alike owned.map)
    (moved : rehashed.map.entries.Perm owned.map.entries) : rehashed.Readable key refs := by
  have targets : rehashed.targets = owned.targets := by
    funext other
    rw [OwnedMap.targets, OwnedMap.targets, alike.keyType]
  have sameHash : Dotten.tenMapHash rehashed.map key = Dotten.tenMapHash owned.map key := by
    rw [TenMap.hash_eq, TenMap.hash_eq, alike.keyBytes]
  constructor
  · rw [targets]
    exact readable.query
  · rw [targets, sameHash]
    exact fun entry member => readable.stored entry (moved.mem_iff.mp member)

/-- `ten_map_set`: a map that grows by an entry owns three more blocks, and in
every other case it owns as many as before. -/
theorem owns_tenMapSet (valid : owned.map.Valid) (readable : owned.Readable key refs)
    (content : V) :
    Owns grants (owned.blocks + refs) (tenMapSet owned key content)
      (fun reply => reply.2.blocks + refs) (owned.SetFact key content) := by
  have held : owned.blocks ≤ owned.blocks + refs := Multiset.le_add_right _ _
  refine Transfers.bind
    (owns_tenMapFind held (readable.mono (Multiset.le_add_left _ _))) ?_
  rintro reply rfl
  cases found : Dotten.tenMapFind owned.map key with
  | some entry =>
      have cell := (OwnedMap.cell_le (mem_of_tenMapFind found)).trans held
      have valueHeld : entry.value.value ∈ owned.blocks + refs :=
        Multiset.mem_of_le cell (by simp [Cell.blocks])
      obtain ⟨overwrittenValid, changed⟩ :=
        valid.overwritten key { entry.value with content }
      refine Transfers.bind (owns_access valueHeld) ?_
      rintro ⟨⟩ -
      refine Transfers.bind (owns_tenSetError _) ?_
      rintro ⟨⟩ -
      refine Transfers.pure ?_ (.overwritten found overwrittenValid ⟨rfl, rfl⟩ changed)
      have cells := OwnedMap.entryBlocks_perm changed
      rw [entryBlocks_overwritten valid found content] at cells
      simp only [OwnedMap.blocks]
      rw [cells]
      rfl
  | none =>
      have absent := valid.find_eq_none found
      refine Transfers.bind (owns_access (Multiset.mem_of_le held owned.self_mem)) ?_
      rintro ⟨⟩ -
      refine Transfers.ite (fun full => ?_) fun roomy => ?_
      · refine Transfers.call refs
          (owns_tenMapRehash valid (Nat.le_mul_of_pos_right _ (by decide))) rfl ?_
        rintro ⟨rc, rehashed⟩ (⟨rfl, rehashedValid, alike, moved, count, bucketCount⟩ | same)
        · have stillAbsent : ∀ entry ∈ rehashed.map.entries,
              rehashed.map.keyBytes entry.key ≠ rehashed.map.keyBytes key := by
            intro entry member
            rw [alike.keyBytes]
            exact absent entry (moved.mem_iff.mp member)
          have room : rehashed.map.count + 1 ≤ rehashed.map.bucketCount * 3 / 4 := by
            have positive := valid.bucketCount_pos
            have load := valid.load
            dsimp only at count bucketCount
            rw [count, bucketCount]
            omega
          simp only [ne_eq, not_true_eq_false, if_false]
          exact (owns_tenMapSetNew rehashedValid (readable_of_rehashed readable alike moved)
            content stillAbsent room).conseq rfl (fun _ _ => rfl) fun _ fact =>
              setFact_of_rehashed valid alike moved absent fact rehashedValid
        · cases same
          simp only [ne_eq, reduceCtorEq, not_false_eq_true, if_true]
          refine Transfers.bind (owns_tenSetError _) ?_
          rintro ⟨⟩ -
          exact Transfers.pure rfl (.refused found valid ⟨rfl, rfl⟩ (List.Perm.refl _))
      · exact owns_tenMapSetNew valid readable content absent (Nat.le_of_not_gt roomy)

/-- `ten_map_remove`: the three blocks of the entry are freed, once each. -/
theorem owns_tenMapRemove (valid : owned.map.Valid) (readable : owned.Readable key refs) :
    Owns grants (owned.blocks + refs) (tenMapRemove owned key)
      (fun reply => reply.2.blocks + refs) (owned.RemoveFact key) := by
  have held : owned.blocks ≤ owned.blocks + refs := Multiset.le_add_right _ _
  have readableNow := readable.mono (Multiset.le_add_left refs owned.blocks)
  refine Transfers.bind
    (owns_tenMapHash (Multiset.mem_of_le held owned.self_mem) readableNow.query) ?_
  rintro hash rfl
  refine Transfers.bind (owns_access (Multiset.mem_of_le held owned.buckets_mem)) ?_
  rintro ⟨⟩ -
  refine Transfers.bind (owns_findChain_getD held readableNow _) ?_
  intro reply same
  cases found : Dotten.tenMapFind owned.map key with
  | none =>
      obtain rfl : reply = none := same.trans found
      refine Transfers.bind (owns_tenSetError _) ?_
      rintro ⟨⟩ -
      exact Transfers.pure rfl (.missing found)
  | some entry =>
      obtain rfl : reply = some entry := same.trans found
      have split := valid.entries_perm_of_find found
      have cells := OwnedMap.entryBlocks_perm split
      rw [OwnedMap.entryBlocks_cons] at cells
      rcases valid.unlinked key with ⟨-, absent⟩ | ⟨chain, unlinks, -, removedValid, left⟩
      · obtain ⟨member, same⟩ := valid.find_eq_some found
        exact absurd same (absent entry member)
      refine Transfers.call
        ({entry.value.entry} + {entry.value.value} + ({owned.self} + {owned.buckets} +
          OwnedMap.entryBlocks (owned.map.entries.filter fun other =>
            owned.map.keyBytes other.key ≠ owned.map.keyBytes key) + refs))
        (owns_tenFree (some entry.value.key)) ?_ ?_
      · simp only [OwnedMap.blocks, ofPointer_some]
        change {owned.self} + {owned.buckets} + OwnedMap.entryBlocks owned.map.entries + refs = _
        rw [cells, Cell.blocks]
        abel
      rintro ⟨⟩ -
      refine Transfers.call
        ({entry.value.entry} + ({owned.self} + {owned.buckets} +
          OwnedMap.entryBlocks (owned.map.entries.filter fun other =>
            owned.map.keyBytes other.key ≠ owned.map.keyBytes key) + refs))
        (owns_tenFree (some entry.value.value)) ?_ ?_
      · simp only [ofPointer_some]
        abel
      rintro ⟨⟩ -
      refine Transfers.call
        ({owned.self} + {owned.buckets} +
          OwnedMap.entryBlocks (owned.map.entries.filter fun other =>
            owned.map.keyBytes other.key ≠ owned.map.keyBytes key) + refs)
        (owns_tenFree (some entry.value.entry)) ?_ ?_
      · simp only [ofPointer_some]
        abel
      rintro ⟨⟩ -
      refine Transfers.bind (owns_tenSetError _) ?_
      rintro ⟨⟩ -
      rw [unlinks, Option.getD_some]
      refine Transfers.pure ?_ (.removed found removedValid ⟨rfl, rfl⟩
        (split.trans (left.symm.cons _)))
      rw [zero_add]
      simp only [OwnedMap.blocks]
      rw [OwnedMap.entryBlocks_perm left]

end Ownership

end Heap

end Dotten
