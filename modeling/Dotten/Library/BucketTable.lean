/-
Module: Dotten.Library.BucketTable
Layer: Library
Purpose: Separately chained hash tables as lists of chains: where an entry
  belongs, how an entry is linked in, unlinked or overwritten, how a table is
  redistributed over a new number of chains, in which order a walk meets the
  entries of one hash, and when the entries of a table are a finite map.
  Entries, keys and hashes are arbitrary.
Main exports: chainAt, link, onChain, redistribute, ofHash, ofHash_link,
  ofHash_redistribute, redistribute_map, Placed, Represents
-/
import Mathlib.Data.Finmap

namespace Dotten.Library.BucketTable

variable {ε : Type}

/-- The chain that entries of hash `h` belong to. -/
def chainAt (table : List (List ε)) (h : Nat) : List ε :=
  table.getD (h % table.length) []

/-- Change the chain that entries of hash `h` belong to. -/
def onChain (f : List ε → List ε) (h : Nat) (table : List (List ε)) : List (List ε) :=
  table.modify (h % table.length) f

/-- Link an entry in at the head of its chain. -/
def link (hash : ε → Nat) (entry : ε) (table : List (List ε)) : List (List ε) :=
  onChain (entry :: ·) (hash entry) table

/-- Move every entry of a table, chain by chain and from the head of each, to
the head of its chain in a fresh table of `count` chains. -/
def redistribute (hash : ε → Nat) (count : Nat) (table : List (List ε)) :
    List (List ε) :=
  table.foldl (fun fresh chain => chain.foldl (fun fresh entry => link hash entry fresh) fresh)
    (List.replicate count [])

/-- Every entry sits in the chain of its hash. -/
def Placed (hash : ε → Nat) (table : List (List ε)) : Prop :=
  ∀ slot chain, table[slot]? = some chain →
    ∀ entry ∈ chain, hash entry % table.length = slot

section Chains

variable {hash : ε → Nat} {table : List (List ε)}

@[simp] theorem length_onChain (f : List ε → List ε) (h : Nat) :
    (onChain f h table).length = table.length := by
  simp [onChain]

@[simp] theorem length_link (entry : ε) :
    (link hash entry table).length = table.length := by
  simp [link]

/-- Changing one chain leaves the entries of the other chains alone. -/
theorem onChain_perm (nonempty : 0 < table.length) (h : Nat) :
    ∃ others, table.flatten.Perm (chainAt table h ++ others) ∧
      ∀ f, (onChain f h table).flatten.Perm (f (chainAt table h) ++ others) := by
  have inside : h % table.length < table.length := Nat.mod_lt _ nonempty
  have found : chainAt table h = table[h % table.length] := by
    simp [chainAt, inside]
  have regroup : ∀ before chain after : List ε,
      (before ++ (chain ++ after)).Perm (chain ++ (before ++ after)) := by
    intro before chain after
    rw [← List.append_assoc, ← List.append_assoc]
    exact List.perm_append_comm.append_right after
  refine ⟨(table.take (h % table.length)).flatten ++
    (table.drop (h % table.length + 1)).flatten, ?_, ?_⟩
  · have whole : table = table.take (h % table.length) ++
        table[h % table.length] :: table.drop (h % table.length + 1) := by
      rw [List.getElem_cons_drop, List.take_append_drop]
    conv_lhs => rw [whole]
    rw [List.flatten_append, List.flatten_cons, found]
    exact regroup _ _ _
  · intro f
    rw [onChain, List.modify_eq_take_cons_drop inside, List.flatten_append, List.flatten_cons,
      found]
    exact regroup _ _ _

/-- A chain holds exactly the entries of its hashes. -/
theorem mem_chainAt (placed : Placed hash table) (nonempty : 0 < table.length)
    (h : Nat) (entry : ε) :
    entry ∈ chainAt table h ↔
      entry ∈ table.flatten ∧ hash entry % table.length = h % table.length := by
  have inside : h % table.length < table.length := Nat.mod_lt _ nonempty
  have found : table[h % table.length]? = some (chainAt table h) := by
    simp [chainAt, inside]
  constructor
  · intro member
    exact ⟨List.mem_flatten.mpr ⟨_, List.mem_of_getElem? found, member⟩,
      placed _ _ found entry member⟩
  · rintro ⟨member, sameSlot⟩
    obtain ⟨chain, chainMember, inChain⟩ := List.mem_flatten.mp member
    obtain ⟨slot, located⟩ := List.mem_iff_getElem?.mp chainMember
    have slotEq := placed slot chain located entry inChain
    rw [← slotEq, sameSlot, found] at located
    cases located
    exact inChain

/-- A change that brings no entry of another hash into a chain keeps every
entry in its place. -/
theorem Placed.onChain (placed : Placed hash table) {f : List ε → List ε} {h : Nat}
    (stays : ∀ entry ∈ f (chainAt table h), hash entry % table.length = h % table.length) :
    Placed hash (onChain f h table) := by
  intro slot chain located entry member
  rw [length_onChain]
  by_cases here : h % table.length = slot
  · subst here
    rw [BucketTable.onChain, List.getElem?_modify_eq] at located
    obtain ⟨old, oldLocated, rfl⟩ := Option.map_eq_some_iff.mp located
    have : chainAt table h = old := by simp [chainAt, oldLocated]
    exact stays entry (this ▸ member)
  · rw [BucketTable.onChain, List.getElem?_modify_ne _ _ here] at located
    exact placed slot chain located entry member

theorem Placed.link (placed : Placed hash table) (nonempty : 0 < table.length)
    (entry : ε) : Placed hash (link hash entry table) := by
  refine placed.onChain ?_
  intro other member
  rcases List.mem_cons.mp member with rfl | inChain
  · rfl
  · exact ((mem_chainAt placed nonempty _ _).mp inChain).2

theorem link_perm (hash : ε → Nat) (nonempty : 0 < table.length) (entry : ε) :
    (link hash entry table).flatten.Perm (entry :: table.flatten) := by
  obtain ⟨others, before, after⟩ := onChain_perm nonempty (hash entry)
  exact (after (entry :: ·)).trans (before.symm.cons entry)

/-- The inner loop of `redistribute`. -/
theorem foldl_link (hash : ε → Nat) (chain : List ε) :
    ∀ {fresh : List (List ε)}, 0 < fresh.length → Placed hash fresh →
      (chain.foldl (fun fresh entry => link hash entry fresh) fresh).length = fresh.length ∧
      Placed hash (chain.foldl (fun fresh entry => link hash entry fresh) fresh) ∧
      (chain.foldl (fun fresh entry => link hash entry fresh) fresh).flatten.Perm
        (chain ++ fresh.flatten) := by
  induction chain with
  | nil => exact fun _ placed => ⟨rfl, placed, List.Perm.refl _⟩
  | cons entry rest inductionHypothesis =>
      intro fresh nonempty placed
      have step := inductionHypothesis (by simpa using nonempty) (placed.link nonempty entry)
      refine ⟨by simpa using step.1, step.2.1, ?_⟩
      refine step.2.2.trans ((List.Perm.append_left rest (link_perm hash nonempty entry)).trans ?_)
      exact List.perm_middle

/-- The outer loop of `redistribute`. -/
theorem foldl_foldl_link (hash : ε → Nat) (chains : List (List ε)) :
    ∀ {fresh : List (List ε)}, 0 < fresh.length → Placed hash fresh →
      (chains.foldl (fun fresh chain =>
        chain.foldl (fun fresh entry => link hash entry fresh) fresh) fresh).length
          = fresh.length ∧
      Placed hash (chains.foldl (fun fresh chain =>
        chain.foldl (fun fresh entry => link hash entry fresh) fresh) fresh) ∧
      (chains.foldl (fun fresh chain =>
        chain.foldl (fun fresh entry => link hash entry fresh) fresh) fresh).flatten.Perm
          (chains.flatten ++ fresh.flatten) := by
  induction chains with
  | nil => exact fun _ placed => ⟨rfl, placed, List.Perm.refl _⟩
  | cons chain rest inductionHypothesis =>
      intro fresh nonempty placed
      obtain ⟨sameLength, stillPlaced, moved⟩ := foldl_link hash chain nonempty placed
      have step := inductionHypothesis (by rw [sameLength]; exact nonempty) stillPlaced
      refine ⟨by rw [List.foldl_cons, step.1, sameLength], step.2.1, ?_⟩
      refine step.2.2.trans ((List.Perm.append_left _ moved).trans ?_)
      rw [List.flatten_cons, ← List.append_assoc]
      exact (List.perm_append_comm).append_right _

theorem placed_replicate (count : Nat) :
    Placed hash (List.replicate count ([] : List ε)) := by
  intro slot chain located entry member
  rw [List.getElem?_replicate] at located
  split at located
  · cases located
    simp at member
  · cases located

theorem length_redistribute {count : Nat} (positive : 0 < count) (table : List (List ε)) :
    (redistribute hash count table).length = count := by
  simpa [redistribute] using
    (foldl_foldl_link hash table (by simpa using positive)
      (placed_replicate count)).1

theorem placed_redistribute {count : Nat} (positive : 0 < count) (table : List (List ε)) :
    Placed hash (redistribute hash count table) :=
  (foldl_foldl_link hash table (by simpa using positive) (placed_replicate count)).2.1

/-- Redistribution loses no entry and invents none. -/
theorem redistribute_perm (hash : ε → Nat) {count : Nat} (positive : 0 < count)
    (table : List (List ε)) :
    (redistribute hash count table).flatten.Perm table.flatten := by
  simpa [redistribute] using
    (foldl_foldl_link hash table (by simpa using positive)
      (placed_replicate count)).2.2

end Chains

section Order

variable {hash : ε → Nat} {table : List (List ε)}

/-- The entries of one hash, in the order in which a walk along their chain meets
them. -/
def ofHash (hash : ε → Nat) (h : Nat) (table : List (List ε)) : List ε :=
  (chainAt table h).filter fun entry => hash entry = h

theorem chainAt_onChain (nonempty : 0 < table.length) (f : List ε → List ε) (h g : Nat) :
    chainAt (onChain f h table) g =
      if h % table.length = g % table.length then f (chainAt table g) else chainAt table g := by
  have inside : g % table.length < table.length := Nat.mod_lt _ nonempty
  rw [chainAt, length_onChain, chainAt, List.getD_eq_getElem?_getD, List.getD_eq_getElem?_getD,
    onChain, List.getElem?_modify, List.getElem?_eq_getElem inside]
  split <;> rfl

theorem ofHash_link (nonempty : 0 < table.length) (entry : ε) (h : Nat) :
    ofHash hash h (link hash entry table) =
      if hash entry = h then entry :: ofHash hash h table else ofHash hash h table := by
  rw [ofHash, link, chainAt_onChain nonempty]
  by_cases same : hash entry = h
  · rw [if_pos same, if_pos (by rw [same]), List.filter_cons_of_pos (by simpa using same)]
    rfl
  · rw [if_neg same]
    split
    · rw [List.filter_cons_of_neg (by simpa using same)]
      rfl
    · rfl

theorem ofHash_replicate (count h : Nat) :
    ofHash hash h (List.replicate count ([] : List ε)) = [] := by
  rw [ofHash, chainAt, List.getD_eq_getElem?_getD, List.getElem?_replicate]
  split <;> rfl

/-- Entries that are linked in one after the other are met the other way round. -/
theorem ofHash_foldl_link (h : Nat) (chain : List ε) :
    ∀ {fresh : List (List ε)}, 0 < fresh.length →
      ofHash hash h (chain.foldl (fun fresh entry => link hash entry fresh) fresh) =
        (chain.filter fun entry => hash entry = h).reverse ++ ofHash hash h fresh := by
  induction chain with
  | nil => exact fun _ => rfl
  | cons entry rest inductionHypothesis =>
      intro fresh nonempty
      rw [List.foldl_cons, inductionHypothesis (by simpa using nonempty), ofHash_link nonempty]
      by_cases same : hash entry = h
      · rw [if_pos same, List.filter_cons_of_pos (by simpa using same), List.reverse_cons,
          List.append_assoc]
        rfl
      · rw [if_neg same, List.filter_cons_of_neg (by simpa using same)]

theorem ofHash_foldl_foldl_link (h : Nat) (chains : List (List ε)) :
    ∀ {fresh : List (List ε)}, 0 < fresh.length →
      ofHash hash h (chains.foldl (fun fresh chain =>
        chain.foldl (fun fresh entry => link hash entry fresh) fresh) fresh) =
          (chains.flatten.filter fun entry => hash entry = h).reverse ++ ofHash hash h fresh := by
  induction chains with
  | nil => exact fun _ => rfl
  | cons chain rest inductionHypothesis =>
      intro fresh nonempty
      have longer : 0 < (chain.foldl (fun fresh entry => link hash entry fresh) fresh).length := by
        have kept : ∀ (chain : List ε) (fresh : List (List ε)),
            (chain.foldl (fun fresh entry => link hash entry fresh) fresh).length =
              fresh.length := by
          intro chain
          induction chain with
          | nil => exact fun _ => rfl
          | cons entry rest inductionHypothesis =>
              intro fresh
              rw [List.foldl_cons, inductionHypothesis, length_link]
        rw [kept]
        exact nonempty
      rw [List.foldl_cons, inductionHypothesis longer, ofHash_foldl_link h chain nonempty,
        List.flatten_cons, List.filter_append, List.reverse_append, List.append_assoc]

/-- All entries of a hash are in one chain. -/
theorem ofHash_eq_filter (placed : Placed hash table) (nonempty : 0 < table.length) (h : Nat) :
    ofHash hash h table = table.flatten.filter fun entry => hash entry = h := by
  have inside : h % table.length < table.length := Nat.mod_lt _ nonempty
  have whole : table = table.take (h % table.length) ++
      table[h % table.length] :: table.drop (h % table.length + 1) := by
    rw [List.getElem_cons_drop, List.take_append_drop]
  have elsewhere : ∀ chains : List (List ε),
      (∀ chain ∈ chains, ∃ slot, table[slot]? = some chain ∧ slot ≠ h % table.length) →
        (chains.flatten.filter fun entry => hash entry = h) = [] := by
    intro chains apart
    rw [List.filter_eq_nil_iff]
    intro entry member same
    rw [decide_eq_true_iff] at same
    obtain ⟨chain, listed, inChain⟩ := List.mem_flatten.mp member
    obtain ⟨slot, located, other⟩ := apart chain listed
    have there := placed slot chain located entry inChain
    rw [same] at there
    exact other there.symm
  have found : chainAt table h = table[h % table.length] := by
    simp [chainAt, inside]
  conv_rhs => rw [whole]
  rw [List.flatten_append, List.flatten_cons, List.filter_append, List.filter_append, elsewhere,
    elsewhere, ofHash, found, List.nil_append, List.append_nil]
  · intro chain listed
    obtain ⟨i, below, here⟩ := List.mem_iff_getElem.mp listed
    rw [List.getElem_drop] at here
    exact ⟨_, List.getElem?_eq_some_iff.mpr ⟨_, here⟩, by omega⟩
  · intro chain listed
    obtain ⟨i, below, here⟩ := List.mem_iff_getElem.mp listed
    rw [List.getElem_take] at here
    rw [List.length_take] at below
    exact ⟨i, List.getElem?_eq_some_iff.mpr ⟨_, here⟩, by omega⟩

/-- Redistribution turns the entries of each hash round. -/
theorem ofHash_redistribute (placed : Placed hash table) (nonempty : 0 < table.length)
    {count : Nat} (positive : 0 < count) (h : Nat) :
    ofHash hash h (redistribute hash count table) = (ofHash hash h table).reverse := by
  rw [redistribute, ofHash_foldl_foldl_link h table (by simpa using positive), ofHash_replicate,
    List.append_nil, ofHash_eq_filter placed nonempty]

end Order

section Mapping

variable {δ : Type} {hash : ε → Nat} {hashSeen : δ → Nat} {see : ε → δ}

/-- Changing one chain and then seeing the entries through a function. -/
theorem map_modify {α β : Type} {f : α → α} {g : α → β} {f' : β → β}
    (commutes : ∀ a, g (f a) = f' (g a)) (items : List α) (i : Nat) :
    (items.modify i f).map g = (items.map g).modify i f' := by
  apply List.ext_getElem?
  intro j
  rw [List.getElem?_map, List.getElem?_modify, List.getElem?_modify, List.getElem?_map]
  cases items[j]? with
  | none => rfl
  | some a =>
      by_cases here : i = j
      · simp [here, commutes]
      · simp [here]

theorem link_map (same : ∀ entry, hashSeen (see entry) = hash entry) (entry : ε)
    (table : List (List ε)) :
    (link hash entry table).map (List.map see) =
      link hashSeen (see entry) (table.map (List.map see)) := by
  rw [link, link, onChain, onChain, List.length_map, same]
  exact map_modify (fun chain => List.map_cons) table _

/-- Entries are redistributed by their hashes alone. -/
theorem redistribute_map (same : ∀ entry, hashSeen (see entry) = hash entry) (count : Nat)
    (table : List (List ε)) :
    (redistribute hash count table).map (List.map see) =
      redistribute hashSeen count (table.map (List.map see)) := by
  have chains : ∀ (chain : List ε) (fresh : List (List ε)),
      (chain.foldl (fun fresh entry => link hash entry fresh) fresh).map (List.map see) =
        (chain.map see).foldl (fun fresh entry => link hashSeen entry fresh)
          (fresh.map (List.map see)) := by
    intro chain
    induction chain with
    | nil => exact fun _ => rfl
    | cons entry rest inductionHypothesis =>
        intro fresh
        rw [List.foldl_cons, inductionHypothesis, link_map same, List.map_cons, List.foldl_cons]
  have tables : ∀ (table : List (List ε)) (fresh : List (List ε)),
      (table.foldl (fun fresh chain =>
        chain.foldl (fun fresh entry => link hash entry fresh) fresh) fresh).map (List.map see) =
        (table.map (List.map see)).foldl (fun fresh chain =>
          chain.foldl (fun fresh entry => link hashSeen entry fresh) fresh)
          (fresh.map (List.map see)) := by
    intro table
    induction table with
    | nil => exact fun _ => rfl
    | cons chain rest inductionHypothesis =>
        intro fresh
        rw [List.foldl_cons, inductionHypothesis, chains, List.map_cons, List.foldl_cons]
  rw [redistribute, redistribute, tables, List.map_replicate, List.map_nil]

end Mapping

section FiniteMap

variable {κ υ : Type} [DecidableEq κ] {key : ε → κ} {value : ε → υ}

/-- The entries, whatever their order, are the bindings of `map`. -/
def Represents (key : ε → κ) (value : ε → υ) (entries : List ε)
    (map : Finmap fun _ : κ => υ) : Prop :=
  ∀ k v, map.lookup k = some v ↔ ∃ entry ∈ entries, key entry = k ∧ value entry = v

theorem represents_nil : Represents key value [] (∅ : Finmap fun _ : κ => υ) := by
  intro k v
  simp

theorem Represents.congr {entries others : List ε} {map : Finmap fun _ : κ => υ}
    (represents : Represents key value entries map)
    (same : ∀ entry, entry ∈ others ↔ entry ∈ entries) :
    Represents key value others map := by
  intro k v
  rw [represents k v]
  simp only [same]

theorem Represents.lookup_eq_none {entries : List ε} {map : Finmap fun _ : κ => υ}
    (represents : Represents key value entries map) {k : κ} :
    map.lookup k = none ↔ ∀ entry ∈ entries, key entry ≠ k := by
  rw [Option.eq_none_iff_forall_ne_some]
  constructor
  · intro absent entry member here
    exact absent _ ((represents k _).mpr ⟨entry, member, here, rfl⟩)
  · intro absent v present
    obtain ⟨entry, member, here, -⟩ := (represents k v).mp present
    exact absent entry member here

/-- A new key is bound by adding its entry. -/
theorem Represents.insert_new {entries : List ε} {map : Finmap fun _ : κ => υ}
    (represents : Represents key value entries map) {entry : ε}
    (fresh : ∀ other ∈ entries, key other ≠ key entry) :
    Represents key value (entry :: entries) (map.insert (key entry) (value entry)) := by
  intro k v
  by_cases here : k = key entry
  · subst here
    rw [Finmap.lookup_insert]
    constructor
    · rintro ⟨rfl⟩
      exact ⟨entry, by simp, rfl, rfl⟩
    · rintro ⟨other, member, sameKey, rfl⟩
      rcases List.mem_cons.mp member with rfl | old
      · rfl
      · exact absurd sameKey (fresh other old)
  · rw [Finmap.lookup_insert_of_ne _ here, represents k v]
    constructor
    · rintro ⟨other, member, found⟩
      exact ⟨other, List.mem_cons_of_mem _ member, found⟩
    · rintro ⟨other, member, rfl, rfl⟩
      rcases List.mem_cons.mp member with rfl | old
      · exact absurd rfl here
      · exact ⟨other, old, rfl, rfl⟩

/-- A bound key is rebound by changing the value of the entry that holds it. -/
theorem Represents.overwrite {entries others : List ε} {map : Finmap fun _ : κ => υ}
    (represents : Represents key value entries map) {k : κ} {v : υ}
    (changed : ∀ k' v', (∃ entry ∈ others, key entry = k' ∧ value entry = v') ↔
      (k' = k ∧ v' = v) ∨ (k' ≠ k ∧ ∃ entry ∈ entries, key entry = k' ∧ value entry = v')) :
    Represents key value others (map.insert k v) := by
  intro k' v'
  rw [changed k' v']
  by_cases here : k' = k
  · subst here
    rw [Finmap.lookup_insert]
    simp [eq_comm]
  · rw [Finmap.lookup_insert_of_ne _ here, represents k' v']
    simp [here]

/-- A key is unbound by dropping the entries that hold it. -/
theorem Represents.erase {entries others : List ε} {map : Finmap fun _ : κ => υ}
    (represents : Represents key value entries map) {k : κ}
    (dropped : ∀ entry, entry ∈ others ↔ entry ∈ entries ∧ key entry ≠ k) :
    Represents key value others (map.erase k) := by
  intro k' v'
  by_cases here : k' = k
  · subst here
    rw [Finmap.lookup_erase]
    simp only [reduceCtorEq, false_iff, not_exists, not_and]
    intro entry member sameKey
    exact absurd sameKey ((dropped entry).mp member).2
  · rw [Finmap.lookup_erase_ne here, represents k' v']
    constructor
    · rintro ⟨entry, member, rfl, rfl⟩
      exact ⟨entry, (dropped entry).mpr ⟨member, here⟩, rfl, rfl⟩
    · rintro ⟨entry, member, found⟩
      exact ⟨entry, ((dropped entry).mp member).1, found⟩

/-- With distinct keys, the number of entries is the number of bound keys. -/
theorem Represents.card_keys {entries : List ε} {map : Finmap fun _ : κ => υ}
    (represents : Represents key value entries map) (distinct : (entries.map key).Nodup) :
    map.keys.card = entries.length := by
  have same : map.keys = (entries.map key).toFinset := by
    ext k
    rw [Finmap.mem_keys, List.mem_toFinset, List.mem_map, ← Finmap.lookup_isSome,
      Option.isSome_iff_exists]
    constructor
    · rintro ⟨v, bound⟩
      obtain ⟨entry, member, here, -⟩ := (represents k v).mp bound
      exact ⟨entry, member, here⟩
    · rintro ⟨entry, member, here⟩
      exact ⟨value entry, (represents k _).mpr ⟨entry, member, here, rfl⟩⟩
  rw [same, List.toFinset_card_of_nodup distinct, List.length_map]

end FiniteMap

end Dotten.Library.BucketTable
