/-
Module: Dotten.Containers.TenMapInvariant
Layer: Containers
Purpose: The representation invariant of the hash table, the finite map that a
  table represents, and what finding, linking, overwriting, unlinking and
  rehashing do to them.  Neither finding nor comparing looks at the values.
Imports: Dotten.Containers.TenMap
Main exports: TenMap.mapValues, tenMapFind_mapValues, TenMap.keyBytes, TenMap.Valid,
  TenMap.Holds, Valid.find_map_value, Valid.rehashed, Valid.linked, Valid.overwritten,
  Valid.unlinked
-/
import Dotten.Containers.TenMap

namespace Dotten

open Dotten.Library
open Dotten.Library.BucketTable

section Values

variable {K V W : Type}

/-- A table with every value replaced. -/
def TenMap.mapValues (f : V → W) (map : TenMap K V) : TenMap K W where
  keyType := map.keyType
  valueType := map.valueType
  keySize := map.keySize
  valueSize := map.valueSize
  buckets := map.buckets.map fun chain => chain.map fun entry =>
    { hash := entry.hash, key := entry.key, value := f entry.value }
  bucketCount := map.bucketCount
  count := map.count

theorem flatten_mapValues (f : V → W) (map : TenMap K V) :
    (map.mapValues f).buckets.flatten = map.buckets.flatten.map fun entry =>
      { hash := entry.hash, key := entry.key, value := f entry.value } := by
  rw [TenMap.mapValues, List.map_flatten]

theorem getD_mapValues (f : V → W) (map : TenMap K V) (slot : Nat) :
    (map.mapValues f).buckets.getD slot [] = (map.buckets.getD slot []).map fun entry =>
      { hash := entry.hash, key := entry.key, value := f entry.value } := by
  rw [TenMap.mapValues]
  simp only [List.getD_eq_getElem?_getD, List.getElem?_map]
  cases map.buckets[slot]? with
  | none => rfl
  | some found => rfl

variable [KeyCell K]

/-- A lookup does not look at the values. -/
theorem tenMapFind_mapValues (f : V → W) (map : TenMap K V) (key : K) :
    tenMapFind (map.mapValues f) key = (tenMapFind map key).map fun entry =>
      { hash := entry.hash, key := entry.key, value := f entry.value } := by
  rw [tenMapFind, tenMapFind]
  change ((map.mapValues f).buckets.getD
    ((tenMapHash map key).toNat % map.bucketCount) []).find? _ = _
  rw [getD_mapValues, List.find?_map]
  rfl

theorem comparedKeys_mapValues (f : V → W) (map : TenMap K V) (hash : UInt64) (key : K)
    (chain : List (MapEntry K V)) :
    comparedKeys (map.mapValues f) hash key (chain.map fun entry =>
      { hash := entry.hash, key := entry.key, value := f entry.value }) =
        comparedKeys map hash key chain := by
  induction chain with
  | nil => rfl
  | cons entry rest inductionHypothesis =>
      rw [List.map_cons, comparedKeys, comparedKeys, inductionHypothesis]
      rfl

theorem tenMapCompared_mapValues (f : V → W) (map : TenMap K V) (key : K) :
    tenMapCompared (map.mapValues f) key = tenMapCompared map key := by
  rw [tenMapCompared, tenMapCompared]
  change comparedKeys (map.mapValues f) (tenMapHash map key) key
    ((map.mapValues f).buckets.getD ((tenMapHash map key).toNat % map.bucketCount) []) = _
  rw [getD_mapValues, comparedKeys_mapValues]

/-- A lookup finds an entry of the table. -/
theorem mem_of_tenMapFind {map : TenMap K V} {key : K} {entry : MapEntry K V}
    (found : tenMapFind map key = some entry) : entry ∈ map.buckets.flatten := by
  have member := List.mem_of_find?_eq_some found
  rw [List.getD_eq_getElem?_getD] at member
  cases located : map.buckets[(tenMapHash map key).toNat % map.bucketCount]? with
  | none =>
      rw [located] at member
      cases member
  | some chain =>
      rw [located] at member
      exact List.mem_flatten.mpr ⟨chain, List.mem_of_getElem? located, member⟩

end Values

section Chains

variable {K V κ : Type} [DecidableEq κ] {isMatch : MapEntry K V → Bool}
  {ident : MapEntry K V → κ} {k : κ}

/-- Overwriting the first match is overwriting every match, when no two
entries of the chain are alike. -/
theorem overwriteFirst_eq_map (value : V) {chain : List (MapEntry K V)}
    (distinct : (chain.map ident).Nodup)
    (tests : ∀ entry ∈ chain, isMatch entry = true ↔ ident entry = k) :
    overwriteFirst isMatch value chain =
      chain.map fun entry => if ident entry = k then { entry with value := value } else entry := by
  induction chain with
  | nil => rfl
  | cons entry rest inductionHypothesis =>
      rw [List.map_cons, List.nodup_cons] at distinct
      have test := tests entry (by simp)
      rw [overwriteFirst, List.map_cons]
      by_cases here : ident entry = k
      · rw [if_pos (test.mpr here), if_pos here]
        congr 1
        refine (List.map_id rest).symm.trans (List.map_congr_left ?_)
        intro other member
        have apart : ident other ≠ k := by
          intro same
          exact distinct.1 (List.mem_map.mpr ⟨other, member, same.trans here.symm⟩)
        rw [if_neg apart]
        rfl
      · rw [if_neg (fun found => here (test.mp found)), if_neg here,
          inductionHypothesis distinct.2 (fun other member => tests other (by simp [member]))]

/-- The walk of `ten_map_remove` finds an entry exactly when there is one, and
then leaves all others. -/
theorem unlinkFirst_eq {chain : List (MapEntry K V)}
    (distinct : (chain.map ident).Nodup)
    (tests : ∀ entry ∈ chain, isMatch entry = true ↔ ident entry = k) :
    unlinkFirst isMatch chain =
      if k ∈ chain.map ident then some (chain.filter fun entry => ident entry ≠ k) else none := by
  induction chain with
  | nil => rfl
  | cons entry rest inductionHypothesis =>
      rw [List.map_cons, List.nodup_cons] at distinct
      have test := tests entry (by simp)
      rw [unlinkFirst]
      by_cases here : ident entry = k
      · rw [if_pos (test.mpr here), if_pos (by simp [here])]
        have keepsRest : rest.filter (fun other => ident other ≠ k) = rest := by
          rw [List.filter_eq_self]
          intro other member
          have apart : ident other ≠ k := by
            intro same
            exact distinct.1 (List.mem_map.mpr ⟨other, member, same.trans here.symm⟩)
          simpa using apart
        rw [List.filter_cons_of_neg (by simpa using here), keepsRest]
      · rw [if_neg (fun found => here (test.mp found)),
          inductionHypothesis distinct.2 (fun other member => tests other (by simp [member]))]
        by_cases later : k ∈ rest.map ident
        · rw [if_pos later, if_pos (by simp only [List.map_cons, List.mem_cons]; exact .inr later)]
          simp [here]
        · rw [if_neg later, if_neg]
          · rfl
          · simp only [List.map_cons, List.mem_cons, not_or]
            exact ⟨Ne.symm here, later⟩

end Chains

namespace TenMap

variable {K V : Type} [KeyCell K]

/-- The bytes by which the map tells keys apart. -/
def keyBytes (map : TenMap K V) (key : K) : Bytes :=
  if map.keyType = .string then (KeyCell.cstr key).bytes
  else (KeyCell.raw key).take map.keySize

/-- All entries, chain after chain. -/
def entries (map : TenMap K V) : List (MapEntry K V) := map.buckets.flatten

/-- The representation invariant. -/
structure Valid (map : TenMap K V) : Prop where
  bucketCount_pos : 0 < map.bucketCount
  length_buckets : map.buckets.length = map.bucketCount
  placed : Placed (fun entry => entry.hash.toNat) map.buckets
  hashed : ∀ entry ∈ map.entries, entry.hash = tenMapHash map entry.key
  distinct : (map.entries.map fun entry => map.keyBytes entry.key).Nodup
  counted : map.count = map.entries.length
  load : map.count ≤ map.bucketCount * 3 / 4

/-- The table represents the finite map `contents`. -/
def Holds (map : TenMap K V) (contents : Finmap fun _ : Bytes => V) : Prop :=
  Represents (fun entry => map.keyBytes entry.key) MapEntry.value map.entries contents

theorem hash_eq (map : TenMap K V) (key : K) :
    tenMapHash map key = tenFnv1a (map.keyBytes key) := by
  unfold tenMapHash keyBytes
  split <;> rfl

theorem keyEquals_iff (map : TenMap K V) (left right : K) :
    tenMapKeyEquals map left right = true ↔ map.keyBytes left = map.keyBytes right := by
  unfold tenMapKeyEquals keyBytes
  split
  · rw [decide_eq_true_iff]
    exact ⟨congrArg CString.bytes, CString.ext⟩
  · rw [decide_eq_true_iff]

/-- On a table with cached hashes the test of the chain walks is equality of
keys: equal keys have equal hashes. -/
theorem matches_iff {map : TenMap K V} {entry : MapEntry K V} {key : K}
    (hashed : entry.hash = tenMapHash map entry.key) :
    tenMapMatches map (tenMapHash map key) key entry = true ↔
      map.keyBytes entry.key = map.keyBytes key := by
  rw [tenMapMatches, Bool.and_eq_true, keyEquals_iff, and_iff_right_iff_imp]
  intro same
  rw [beq_iff_eq, hashed, hash_eq, hash_eq, same]

namespace Valid

variable {map : TenMap K V}

theorem buckets_pos (valid : map.Valid) : 0 < map.buckets.length := by
  rw [valid.length_buckets]
  exact valid.bucketCount_pos

/-- The chain that a lookup walks. -/
theorem chain_eq (valid : map.Valid) (key : K) :
    map.buckets.getD ((tenMapHash map key).toNat % map.bucketCount) [] =
      chainAt map.buckets (tenMapHash map key).toNat := by
  rw [chainAt, valid.length_buckets]

theorem mem_chain (valid : map.Valid) {entry : MapEntry K V} {key : K}
    (member : entry ∈ map.entries) (same : map.keyBytes entry.key = map.keyBytes key) :
    entry ∈ chainAt map.buckets (tenMapHash map key).toNat := by
  refine (mem_chainAt valid.placed valid.buckets_pos _ entry).mpr ⟨member, ?_⟩
  rw [valid.hashed entry member, hash_eq, hash_eq, same]

theorem mem_entries_of_mem_chain (valid : map.Valid) {entry : MapEntry K V} {h : Nat}
    (member : entry ∈ chainAt map.buckets h) : entry ∈ map.entries :=
  ((mem_chainAt valid.placed valid.buckets_pos h entry).mp member).1

theorem tests_chain (valid : map.Valid) (key : K) :
    ∀ entry ∈ chainAt map.buckets (tenMapHash map key).toNat,
      tenMapMatches map (tenMapHash map key) key entry = true ↔
        map.keyBytes entry.key = map.keyBytes key :=
  fun entry member => matches_iff (valid.hashed entry (valid.mem_entries_of_mem_chain member))

/-- The entries of the chain of a key and all others, of which none has the
key. -/
theorem split (valid : map.Valid) (key : K) :
    ∃ others, map.entries.Perm (chainAt map.buckets (tenMapHash map key).toNat ++ others) ∧
      (∀ entry ∈ others, map.keyBytes entry.key ≠ map.keyBytes key) ∧
      (∀ f, (onChain f (tenMapHash map key).toNat map.buckets).flatten.Perm
        (f (chainAt map.buckets (tenMapHash map key).toNat) ++ others)) := by
  obtain ⟨others, before, after⟩ := onChain_perm valid.buckets_pos (tenMapHash map key).toNat
  refine ⟨others, before, ?_, after⟩
  intro entry member same
  have inChain : entry ∈ chainAt map.buckets (tenMapHash map key).toNat :=
    valid.mem_chain (before.mem_iff.mpr (by simp [member])) same
  have distinct := ((before.map fun entry => map.keyBytes entry.key).nodup_iff).mp valid.distinct
  rw [List.map_append, List.nodup_append] at distinct
  exact distinct.2.2 _ (List.mem_map_of_mem inChain) _ (List.mem_map_of_mem member) rfl

theorem distinct_chain (valid : map.Valid) (key : K) :
    ((chainAt map.buckets (tenMapHash map key).toNat).map
      fun entry => map.keyBytes entry.key).Nodup := by
  obtain ⟨others, before, -, -⟩ := valid.split key
  have distinct := ((before.map fun entry => map.keyBytes entry.key).nodup_iff).mp valid.distinct
  rw [List.map_append, List.nodup_append] at distinct
  exact distinct.1

/-- `ten__map_find` finds the entry of a key, and only that. -/
theorem find_eq_some (valid : map.Valid) {key : K} {entry : MapEntry K V}
    (found : tenMapFind map key = some entry) :
    entry ∈ map.entries ∧ map.keyBytes entry.key = map.keyBytes key := by
  rw [tenMapFind, valid.chain_eq] at found
  have member := List.mem_of_find?_eq_some found
  exact ⟨valid.mem_entries_of_mem_chain member,
    (valid.tests_chain key entry member).mp (List.find?_some found)⟩

theorem find_eq_none (valid : map.Valid) {key : K} (missing : tenMapFind map key = none) :
    ∀ entry ∈ map.entries, map.keyBytes entry.key ≠ map.keyBytes key := by
  intro entry member same
  rw [tenMapFind, valid.chain_eq, List.find?_eq_none] at missing
  have inChain := valid.mem_chain member same
  exact missing entry inChain ((valid.tests_chain key entry inChain).mpr same)

/-- The lookup of the code is the lookup of the represented map. -/
theorem find_map_value (valid : map.Valid) {contents : Finmap fun _ : Bytes => V}
    (holds : map.Holds contents) (key : K) :
    (tenMapFind map key).map MapEntry.value = contents.lookup (map.keyBytes key) := by
  cases found : tenMapFind map key with
  | none =>
      exact (holds.lookup_eq_none.mpr (valid.find_eq_none found)).symm
  | some entry =>
      obtain ⟨member, same⟩ := valid.find_eq_some found
      exact ((holds _ _).mpr ⟨entry, member, same, rfl⟩).symm

theorem find_isSome_iff (valid : map.Valid) {contents : Finmap fun _ : Bytes => V}
    (holds : map.Holds contents) (key : K) :
    (tenMapFind map key).isSome = true ↔ map.keyBytes key ∈ contents := by
  rw [← Finmap.lookup_isSome, ← valid.find_map_value holds key, Option.isSome_map]

/-! ### What linking, overwriting and unlinking do to a valid table -/

/-- The array index of the code is the chain of the library. -/
theorem modify_eq_onChain (valid : map.Valid) (f : List (MapEntry K V) → List (MapEntry K V))
    (hash : UInt64) :
    map.buckets.modify (hash.toNat % map.bucketCount) f = onChain f hash.toNat map.buckets := by
  rw [onChain, valid.length_buckets]

theorem rehashed (valid : map.Valid) {newBucketCount : Nat}
    (grows : map.bucketCount ≤ newBucketCount) :
    TenMap.Valid
        { map with
          buckets := redistribute (fun entry => entry.hash.toNat) newBucketCount map.buckets
          bucketCount := newBucketCount } ∧
      (redistribute (fun entry => entry.hash.toNat) newBucketCount map.buckets).flatten.Perm
        map.entries := by
  have positive : 0 < newBucketCount := Nat.lt_of_lt_of_le valid.bucketCount_pos grows
  have moved := redistribute_perm (fun entry : MapEntry K V => entry.hash.toNat)
    positive map.buckets
  refine ⟨?_, moved⟩
  constructor
  · exact positive
  · exact length_redistribute positive map.buckets
  · exact placed_redistribute positive map.buckets
  · intro entry member
    exact valid.hashed entry (moved.mem_iff.mp member)
  · exact ((moved.map fun entry => map.keyBytes entry.key).nodup_iff).mpr valid.distinct
  · exact valid.counted.trans moved.length_eq.symm
  · have load := valid.load
    change map.count ≤ newBucketCount * 3 / 4
    omega

/-- The table after an entry for an absent key has been linked in. -/
theorem linked (valid : map.Valid) {key : K} (value : V)
    (absent : ∀ entry ∈ map.entries, map.keyBytes entry.key ≠ map.keyBytes key)
    (room : map.count + 1 ≤ map.bucketCount * 3 / 4) :
    TenMap.Valid
        { map with
          buckets := map.buckets.modify ((tenMapHash map key).toNat % map.bucketCount)
            (({ hash := tenMapHash map key, key, value } : MapEntry K V) :: ·)
          count := map.count + 1 } ∧
      (map.buckets.modify ((tenMapHash map key).toNat % map.bucketCount)
        (({ hash := tenMapHash map key, key, value } : MapEntry K V) :: ·)).flatten.Perm
          ({ hash := tenMapHash map key, key, value } :: map.entries) := by
  rw [valid.modify_eq_onChain]
  have grown := link_perm (fun entry : MapEntry K V => entry.hash.toNat)
    valid.buckets_pos { hash := tenMapHash map key, key, value }
  refine ⟨?_, grown⟩
  constructor
  · exact valid.bucketCount_pos
  · exact (length_onChain _ _).trans valid.length_buckets
  · exact valid.placed.link valid.buckets_pos { hash := tenMapHash map key, key, value }
  · intro entry member
    rcases List.mem_cons.mp (grown.mem_iff.mp member) with rfl | old
    · rfl
    · exact valid.hashed entry old
  · refine ((grown.map fun entry => map.keyBytes entry.key).nodup_iff).mpr ?_
    rw [List.map_cons, List.nodup_cons]
    refine ⟨?_, valid.distinct⟩
    intro present
    obtain ⟨entry, member, same⟩ := List.mem_map.mp present
    exact absent entry member same
  · change map.count + 1 = _
    rw [valid.counted]
    exact grown.length_eq.symm
  · exact room

/-- The table after the value of a key has been overwritten. -/
theorem overwritten (valid : map.Valid) (key : K) (value : V) :
    TenMap.Valid
        { map with
          buckets := map.buckets.modify ((tenMapHash map key).toNat % map.bucketCount)
            (overwriteFirst (tenMapMatches map (tenMapHash map key) key) value) } ∧
      (map.buckets.modify ((tenMapHash map key).toNat % map.bucketCount)
        (overwriteFirst (tenMapMatches map (tenMapHash map key) key) value)).flatten.Perm
          (map.entries.map fun entry =>
            if map.keyBytes entry.key = map.keyBytes key then { entry with value := value }
            else entry) := by
  rw [valid.modify_eq_onChain]
  obtain ⟨others, before, apart, after⟩ := valid.split key
  have chain := overwriteFirst_eq_map value (valid.distinct_chain key) (valid.tests_chain key)
  have changed : (onChain (overwriteFirst (tenMapMatches map (tenMapHash map key) key) value)
      (tenMapHash map key).toNat map.buckets).flatten.Perm
        (map.entries.map fun entry =>
          if map.keyBytes entry.key = map.keyBytes key then { entry with value := value }
          else entry) := by
    refine (after _).trans ?_
    rw [chain]
    refine List.Perm.trans ?_ (before.map _).symm
    rw [List.map_append]
    have kept : others.map (fun entry =>
        if map.keyBytes entry.key = map.keyBytes key then { entry with value := value }
        else entry) = others := by
      refine (List.map_congr_left ?_).trans (List.map_id others)
      intro entry member
      exact if_neg (apart entry member)
    rw [kept]
  have sameKeys : (map.entries.map fun entry =>
      if map.keyBytes entry.key = map.keyBytes key then { entry with value := value }
      else entry).map (fun entry => map.keyBytes entry.key) =
        map.entries.map fun entry => map.keyBytes entry.key := by
    rw [List.map_map]
    refine List.map_congr_left ?_
    intro entry _
    simp only [Function.comp_apply]
    split <;> rfl
  refine ⟨?_, changed⟩
  constructor
  · exact valid.bucketCount_pos
  · exact (length_onChain _ _).trans valid.length_buckets
  · refine valid.placed.onChain ?_
    intro entry member
    rw [chain] at member
    obtain ⟨old, oldMember, rfl⟩ := List.mem_map.mp member
    have slot := ((mem_chainAt valid.placed valid.buckets_pos _ old).mp oldMember).2
    split <;> exact slot
  · intro entry member
    obtain ⟨old, oldMember, rfl⟩ := List.mem_map.mp (changed.mem_iff.mp member)
    have hashed := valid.hashed old oldMember
    split <;> exact hashed
  · refine ((changed.map fun entry => map.keyBytes entry.key).nodup_iff).mpr ?_
    rw [sameKeys]
    exact valid.distinct
  · change map.count = _
    rw [valid.counted]
    exact (changed.length_eq.trans (List.length_map _)).symm
  · exact valid.load

/-- One entry has the key of an entry. -/
theorem length_filter_ne (valid : map.Valid) {key : K}
    (present : ∃ entry ∈ map.entries, map.keyBytes entry.key = map.keyBytes key) :
    (map.entries.filter fun entry => map.keyBytes entry.key ≠ map.keyBytes key).length =
      map.entries.length - 1 := by
  have one : (map.entries.map fun entry => map.keyBytes entry.key).count
      (map.keyBytes key) = 1 :=
    List.count_eq_one_of_mem valid.distinct (List.mem_map.mpr present)
  have total := List.length_eq_countP_add_countP
    (fun entry : MapEntry K V => map.keyBytes entry.key == map.keyBytes key)
    (l := map.entries)
  rw [List.count, List.countP_map] at one
  have matching : map.entries.countP
      (fun entry => map.keyBytes entry.key == map.keyBytes key) = 1 := one
  rw [matching] at total
  rw [← List.countP_eq_length_filter]
  simp only [beq_iff_eq, decide_not, ne_eq] at total ⊢
  omega

/-- The table without the entry of a key that it has. -/
theorem filtered (valid : map.Valid) {key : K}
    (present : ∃ entry ∈ map.entries, map.keyBytes entry.key = map.keyBytes key) :
    TenMap.Valid
        { map with
          buckets := onChain (fun _ =>
            (chainAt map.buckets (tenMapHash map key).toNat).filter fun entry =>
              map.keyBytes entry.key ≠ map.keyBytes key) (tenMapHash map key).toNat map.buckets
          count := map.count - 1 } ∧
      (onChain (fun _ =>
        (chainAt map.buckets (tenMapHash map key).toNat).filter fun entry =>
          map.keyBytes entry.key ≠ map.keyBytes key)
        (tenMapHash map key).toNat map.buckets).flatten.Perm
          (map.entries.filter fun entry => map.keyBytes entry.key ≠ map.keyBytes key) := by
  obtain ⟨others, before, apart, after⟩ := valid.split key
  have kept : others.filter (fun entry => map.keyBytes entry.key ≠ map.keyBytes key) = others := by
    rw [List.filter_eq_self]
    intro entry member
    simpa using apart entry member
  have dropped : (onChain (fun _ =>
      (chainAt map.buckets (tenMapHash map key).toNat).filter fun entry =>
        map.keyBytes entry.key ≠ map.keyBytes key)
      (tenMapHash map key).toNat map.buckets).flatten.Perm
        (map.entries.filter fun entry => map.keyBytes entry.key ≠ map.keyBytes key) := by
    refine (after _).trans (List.Perm.trans ?_ (before.filter _).symm)
    rw [List.filter_append, kept]
  refine ⟨?_, dropped⟩
  constructor
  · exact valid.bucketCount_pos
  · exact (length_onChain _ _).trans valid.length_buckets
  · refine valid.placed.onChain ?_
    intro entry member
    have inChain := (List.mem_filter.mp member).1
    exact ((mem_chainAt valid.placed valid.buckets_pos _ entry).mp inChain).2
  · intro entry member
    exact valid.hashed entry (List.mem_filter.mp (dropped.mem_iff.mp member)).1
  · refine ((dropped.map fun entry => map.keyBytes entry.key).nodup_iff).mpr ?_
    exact valid.distinct.sublist (List.filter_sublist.map _)
  · change map.count - 1 = _
    rw [valid.counted, ← valid.length_filter_ne present]
    exact dropped.length_eq.symm
  · have load := valid.load
    change map.count - 1 ≤ map.bucketCount * 3 / 4
    omega

/-- The walk of `ten_map_remove` succeeds on the keys of the table, and leaves
the table without the entry. -/
theorem unlinked (valid : map.Valid) (key : K) :
    (unlinkFirst (tenMapMatches map (tenMapHash map key) key)
          (map.buckets.getD ((tenMapHash map key).toNat % map.bucketCount) []) = none ∧
        ∀ entry ∈ map.entries, map.keyBytes entry.key ≠ map.keyBytes key) ∨
      (∃ chain,
        unlinkFirst (tenMapMatches map (tenMapHash map key) key)
          (map.buckets.getD ((tenMapHash map key).toNat % map.bucketCount) []) = some chain ∧
        (∃ entry ∈ map.entries, map.keyBytes entry.key = map.keyBytes key) ∧
        TenMap.Valid
          { map with
            buckets := map.buckets.modify ((tenMapHash map key).toNat % map.bucketCount)
              (fun _ => chain)
            count := map.count - 1 } ∧
        (map.buckets.modify ((tenMapHash map key).toNat % map.bucketCount)
          (fun _ => chain)).flatten.Perm
            (map.entries.filter fun entry => map.keyBytes entry.key ≠ map.keyBytes key)) := by
  rw [valid.chain_eq, unlinkFirst_eq (valid.distinct_chain key) (valid.tests_chain key)]
  by_cases present : map.keyBytes key ∈
      (chainAt map.buckets (tenMapHash map key).toNat).map fun entry => map.keyBytes entry.key
  · right
    have entered : ∃ entry ∈ map.entries, map.keyBytes entry.key = map.keyBytes key := by
      obtain ⟨entry, member, same⟩ := List.mem_map.mp present
      exact ⟨entry, valid.mem_entries_of_mem_chain member, same⟩
    rw [if_pos present]
    refine ⟨_, rfl, entered, ?_⟩
    rw [valid.modify_eq_onChain]
    exact valid.filtered entered
  · left
    rw [if_neg present]
    refine ⟨rfl, ?_⟩
    intro entry member same
    exact present (List.mem_map.mpr ⟨entry, valid.mem_chain member same, same⟩)

end Valid

end TenMap

end Dotten
