/-
Module: Dotten.Library.OrderedMap
Layer: Library
Purpose: Insertion-ordered maps as association lists.  Two keys are the same
  key when they have the same normal form, so the maps also cover keys that
  are compared up to a folding; a key keeps its first spelling and its first
  position, and takes its last value.
Main exports: OrderedMap.insert, OrderedMap.lookup, OrderedMap.ofList,
  OrderedMap.firstSpellings, OrderedMap.lookup_ofList,
  OrderedMap.map_fst_ofList, OrderedMap.Replaced, OrderedMap.replaced_iff,
  OrderedMap.collapse, OrderedMap.ofList_eq_collapse
-/
import Mathlib.Data.List.Induction
import Mathlib.Data.List.Nodup

namespace Dotten.Library.OrderedMap

variable {K κ V W : Type} [DecidableEq κ] (norm : K → κ)

/-- Give `key` the value `value`: in place when the key is there, at the end
otherwise. -/
def insert (key : K) (value : V) : List (K × V) → List (K × V)
  | [] => [(key, value)]
  | (other, old) :: rest =>
      if norm other = norm key then (other, value) :: rest
      else (other, old) :: insert key value rest

/-- The value of `key`. -/
def lookup (key : K) : List (K × V) → Option V
  | [] => none
  | (other, value) :: rest =>
      if norm other = norm key then some value else lookup key rest

/-- The map that a sequence of insertions builds. -/
def ofList (members : List (K × V)) : List (K × V) :=
  members.foldl (fun built member => insert norm member.1 member.2 built) []

/-- No two members have the same key. -/
def Distinct (built : List (K × V)) : Prop :=
  (built.map fun member => norm member.1).Nodup

variable {norm}

omit [DecidableEq κ] in
@[simp] theorem distinct_nil : Distinct norm ([] : List (K × V)) := by
  simp [Distinct]

omit [DecidableEq κ] in
theorem distinct_cons {member : K × V} {rest : List (K × V)} :
    Distinct norm (member :: rest) ↔
      norm member.1 ∉ rest.map (fun other => norm other.1) ∧ Distinct norm rest := by
  rw [Distinct, List.map_cons, List.nodup_cons]
  rfl

omit [DecidableEq κ] in
theorem Distinct.sublist {part whole : List (K × V)} (distinct : Distinct norm whole)
    (sublist : part.Sublist whole) : Distinct norm part :=
  List.Nodup.sublist (sublist.map fun member => norm member.1) distinct

omit [DecidableEq κ] in
theorem distinct_append_iff {left right : List (K × V)} :
    Distinct norm (left ++ right) ↔ Distinct norm left ∧ Distinct norm right ∧
      ∀ member ∈ left, ∀ other ∈ right, norm member.1 ≠ norm other.1 := by
  unfold Distinct
  rw [List.map_append, List.nodup_append]
  simp only [List.mem_map, forall_exists_index, and_imp, forall_apply_eq_imp_iff₂]

/-- A key that is not there is appended. -/
theorem insert_of_notMem {key : K} {value : V} {built : List (K × V)}
    (absent : norm key ∉ built.map fun member => norm member.1) :
    insert norm key value built = built ++ [(key, value)] := by
  induction built with
  | nil => rfl
  | cons member rest inductionHypothesis =>
      rw [List.map_cons, List.mem_cons, not_or] at absent
      rw [insert, if_neg (Ne.symm absent.1), inductionHypothesis absent.2, List.cons_append]

/-- A key that is there has its value replaced where it stands. -/
theorem insert_of_mem {key : K} {value : V} {built : List (K × V)}
    (distinct : Distinct norm built)
    (present : norm key ∈ built.map fun member => norm member.1) :
    insert norm key value built =
      built.map fun member => if norm member.1 = norm key then (member.1, value) else member := by
  induction built with
  | nil => simp at present
  | cons member rest inductionHypothesis =>
      obtain ⟨notLater, distinctRest⟩ := distinct_cons.mp distinct
      rw [insert, List.map_cons]
      by_cases here : norm member.1 = norm key
      · rw [if_pos here, if_pos here]
        congr 1
        refine (List.map_id rest).symm.trans (List.map_congr_left ?_)
        intro other member'
        have elsewhere : norm other.1 ≠ norm key := by
          intro same
          exact notLater (List.mem_map.mpr ⟨other, member', same.trans here.symm⟩)
        rw [if_neg elsewhere]
        rfl
      · rw [if_neg here, if_neg here]
        have later : norm key ∈ rest.map fun other => norm other.1 := by
          rw [List.map_cons, List.mem_cons] at present
          exact present.resolve_left (Ne.symm here)
        rw [inductionHypothesis distinctRest later]

/-- An insertion changes no spelling and no position of an existing key. -/
theorem map_fst_insert (norm : K → κ) (key : K) (value : V) (built : List (K × V)) :
    (insert norm key value built).map Prod.fst =
      if norm key ∈ built.map (fun member => norm member.1) then built.map Prod.fst
      else built.map Prod.fst ++ [key] := by
  induction built with
  | nil => simp [insert]
  | cons member rest inductionHypothesis =>
      rw [insert]
      by_cases here : norm member.1 = norm key
      · rw [if_pos here, if_pos (by simp [here])]
        simp
      · rw [if_neg here, List.map_cons, inductionHypothesis]
        have : norm key ≠ norm member.1 := Ne.symm here
        simp only [List.map_cons, List.mem_cons, this, false_or]
        split <;> simp

theorem Distinct.insert {built : List (K × V)} (distinct : Distinct norm built)
    (key : K) (value : V) : Distinct norm (insert norm key value built) := by
  have keys := congrArg (List.map norm) (map_fst_insert norm key value built)
  rw [List.map_map] at keys
  change ((OrderedMap.insert norm key value built).map (norm ∘ Prod.fst)).Nodup
  rw [keys]
  have same : (built.map Prod.fst).map norm = built.map fun member => norm member.1 := by
    rw [List.map_map]
    rfl
  split
  · rw [same]
    exact distinct
  · rename_i absent
    rw [List.map_append, same]
    refine List.nodup_append.mpr ⟨distinct, by simp, ?_⟩
    intro left leftMember right rightMember
    simp only [List.map_cons, List.map_nil, List.mem_singleton] at rightMember
    subst rightMember
    exact fun same => absent (same ▸ leftMember)

theorem lookup_insert (key other : K) (value : V) (built : List (K × V)) :
    lookup norm other (insert norm key value built) =
      if norm key = norm other then some value else lookup norm other built := by
  induction built with
  | nil => simp [insert, lookup]
  | cons member rest inductionHypothesis =>
      rw [insert]
      by_cases here : norm member.1 = norm key
      · rw [if_pos here, lookup, lookup, here]
        split <;> rfl
      · rw [if_neg here, lookup, inductionHypothesis, lookup]
        by_cases there : norm member.1 = norm other
        · rw [if_pos there, if_pos there, if_neg (fun same => here (there.trans same.symm))]
        · rw [if_neg there, if_neg there]

theorem lookup_congr {key other : K} (same : norm key = norm other) (built : List (K × V)) :
    lookup norm key built = lookup norm other built := by
  induction built with
  | nil => rfl
  | cons member rest inductionHypothesis => rw [lookup, lookup, same, inductionHypothesis]

theorem lookup_eq_some_iff {key : K} {value : V} {built : List (K × V)}
    (distinct : Distinct norm built) :
    lookup norm key built = some value ↔
      ∃ member ∈ built, norm member.1 = norm key ∧ member.2 = value := by
  induction built with
  | nil => simp [lookup]
  | cons member rest inductionHypothesis =>
      obtain ⟨notLater, distinctRest⟩ := distinct_cons.mp distinct
      rw [lookup]
      by_cases here : norm member.1 = norm key
      · rw [if_pos here]
        constructor
        · intro found
          exact ⟨member, by simp, here, Option.some.inj found⟩
        · rintro ⟨other, otherMember, same, rfl⟩
          rcases List.mem_cons.mp otherMember with rfl | later
          · rfl
          · exact absurd (List.mem_map.mpr ⟨other, later, same.trans here.symm⟩) notLater
      · rw [if_neg here, inductionHypothesis distinctRest]
        simp [here]

theorem lookup_eq_none {key : K} {built : List (K × V)}
    (absent : ∀ member ∈ built, norm member.1 ≠ norm key) : lookup norm key built = none := by
  induction built with
  | nil => rfl
  | cons member rest inductionHypothesis =>
      rw [lookup, if_neg (absent member List.mem_cons_self)]
      exact inductionHypothesis
        (fun other listed => absent other (List.mem_cons_of_mem member listed))

/-- After an insertion every value is the new one or an old one. -/
theorem forall_insert {P : V → Prop} {key : K} {value : V} {built : List (K × V)}
    (old : ∀ member ∈ built, P member.2) (new : P value) :
    ∀ member ∈ insert norm key value built, P member.2 := by
  induction built with
  | nil =>
      intro member listed
      rw [List.mem_singleton.mp listed]
      exact new
  | cons first rest inductionHypothesis =>
      have later := inductionHypothesis (fun member listed =>
        old member (List.mem_cons_of_mem first listed))
      intro member listed
      rw [insert] at listed
      split at listed
      · rcases List.mem_cons.mp listed with rfl | inRest
        · exact new
        · exact old member (List.mem_cons_of_mem first inRest)
      · rcases List.mem_cons.mp listed with rfl | inRest
        · exact old _ List.mem_cons_self
        · exact later member inRest

/-- Insertion looks at the normal forms of the keys only. -/
theorem insert_map {K' κ' : Type} [DecidableEq κ'] {norm' : K' → κ'} (f : K → K') (g : V → W)
    (same : ∀ a b, norm' (f a) = norm' (f b) ↔ norm a = norm b) (key : K) (value : V)
    (built : List (K × V)) :
    insert norm' (f key) (g value) (built.map (Prod.map f g)) =
      (insert norm key value built).map (Prod.map f g) := by
  induction built with
  | nil => rfl
  | cons member rest inductionHypothesis =>
      simp only [List.map_cons, insert, Prod.map_fst, same]
      split
      · rfl
      · rw [inductionHypothesis, List.map_cons]
        rfl

theorem lookup_map {K' κ' : Type} [DecidableEq κ'] {norm' : K' → κ'} (f : K → K') (g : V → W)
    (same : ∀ a b, norm' (f a) = norm' (f b) ↔ norm a = norm b) (key : K)
    (built : List (K × V)) :
    lookup norm' (f key) (built.map (Prod.map f g)) = (lookup norm key built).map g := by
  induction built with
  | nil => rfl
  | cons member rest inductionHypothesis =>
      simp only [List.map_cons, lookup, Prod.map_fst, same]
      split
      · rfl
      · exact inductionHypothesis

/-- The values that a sequence of insertions replaces all have a property. -/
def Replaced (norm : K → κ) (P : V → Prop) : List (K × V) → List (K × V) → Prop
  | [], _ => True
  | member :: rest, built => (∀ value, lookup norm member.1 built = some value → P value) ∧
      Replaced norm P rest (insert norm member.1 member.2 built)

/-- A value is replaced when its key is inserted again. -/
theorem replaced_iff {P : V → Prop} (members : List (K × V)) : ∀ built : List (K × V),
    Replaced norm P members built ↔
      (∀ member ∈ members, ∀ value, lookup norm member.1 built = some value → P value) ∧
        members.Pairwise fun earlier later => norm earlier.1 = norm later.1 → P earlier.2 := by
  induction members with
  | nil =>
      intro built
      exact iff_of_true trivial ⟨List.forall_mem_nil _, .nil⟩
  | cons member rest inductionHypothesis =>
      intro built
      rw [Replaced, inductionHypothesis, List.forall_mem_cons, List.pairwise_cons]
      simp only [lookup_insert]
      constructor
      · rintro ⟨first, later, pairwise⟩
        refine ⟨⟨first, fun other listed value found => ?_⟩, fun other listed same => ?_, pairwise⟩
        · by_cases same : norm member.1 = norm other.1
          · exact first value ((lookup_congr same built).trans found)
          · exact later other listed value (by rw [if_neg same]; exact found)
        · exact later other listed member.2 (by rw [if_pos same])
      · rintro ⟨⟨first, others⟩, again, pairwise⟩
        refine ⟨first, fun other listed value found => ?_, pairwise⟩
        by_cases same : norm member.1 = norm other.1
        · rw [if_pos same] at found
          cases found
          exact again other listed same
        · rw [if_neg same] at found
          exact others other listed value found

theorem ofList_append_singleton (members : List (K × V)) (member : K × V) :
    ofList norm (members ++ [member]) = insert norm member.1 member.2 (ofList norm members) := by
  simp [ofList]

/-- A map of images is the image of the map. -/
theorem ofList_map {K' κ' : Type} [DecidableEq κ'] {norm' : K' → κ'} (f : K → K') (g : V → W)
    (same : ∀ a b, norm' (f a) = norm' (f b) ↔ norm a = norm b) (members : List (K × V)) :
    ofList norm' (members.map (Prod.map f g)) = (ofList norm members).map (Prod.map f g) := by
  induction members using List.reverseRecOn with
  | nil => rfl
  | append_singleton members member inductionHypothesis =>
      rw [List.map_append, List.map_singleton, ofList_append_singleton, ofList_append_singleton,
        inductionHypothesis]
      exact insert_map f g same member.1 member.2 (ofList norm members)

theorem distinct_ofList (norm : K → κ) (members : List (K × V)) : Distinct norm (ofList norm members) := by
  induction members using List.reverseRecOn with
  | nil => exact distinct_nil
  | append_singleton members member inductionHypothesis =>
      rw [ofList_append_singleton]
      exact inductionHypothesis.insert _ _

/-- A map reads the last value of a key. -/
theorem lookup_ofList (key : K) (members : List (K × V)) :
    lookup norm key (ofList norm members) =
      (members.reverse.find? fun member => norm member.1 = norm key).map Prod.snd := by
  induction members using List.reverseRecOn with
  | nil => rfl
  | append_singleton members member inductionHypothesis =>
      rw [ofList_append_singleton, lookup_insert, inductionHypothesis, List.reverse_append,
        List.reverse_singleton, List.singleton_append, List.find?_cons]
      by_cases here : norm member.1 = norm key
      · simp [here]
      · simp [here]

/-- Each key in its first spelling, in the order of first appearance. -/
def firstSpellings (norm : K → κ) : List K → List K
  | [] => []
  | key :: rest => key :: (firstSpellings norm rest).filter fun other => norm other ≠ norm key

theorem mem_map_firstSpellings {key : K} {keys : List K} :
    norm key ∈ (firstSpellings norm keys).map norm ↔ norm key ∈ keys.map norm := by
  induction keys with
  | nil => exact Iff.rfl
  | cons first rest inductionHypothesis =>
      rw [firstSpellings, List.map_cons, List.map_cons, List.mem_cons, List.mem_cons]
      by_cases here : norm key = norm first
      · simp [here]
      · rw [or_iff_right here, or_iff_right here, ← inductionHypothesis]
        simp only [List.mem_map, List.mem_filter, decide_eq_true_eq]
        constructor
        · rintro ⟨other, ⟨listed, -⟩, same⟩
          exact ⟨other, listed, same⟩
        · rintro ⟨other, listed, same⟩
          exact ⟨other, ⟨listed, fun first' => here (same.symm.trans first')⟩, same⟩

theorem firstSpellings_append_singleton (keys : List K) (key : K) :
    firstSpellings norm (keys ++ [key]) =
      if norm key ∈ keys.map norm then firstSpellings norm keys
      else firstSpellings norm keys ++ [key] := by
  induction keys with
  | nil => rfl
  | cons first rest inductionHypothesis =>
      rw [List.cons_append, firstSpellings, inductionHypothesis, firstSpellings]
      simp only [List.map_cons, List.mem_cons]
      by_cases later : norm key ∈ rest.map norm
      · rw [if_pos later, if_pos (.inr later)]
      · by_cases here : norm key = norm first
        · rw [if_neg later, if_pos (.inl here), List.filter_append,
            List.filter_cons_of_neg (by simpa using here), List.filter_nil, List.append_nil]
        · rw [if_neg later, if_neg (not_or.mpr ⟨here, later⟩), List.filter_append,
            List.filter_cons_of_pos (by simpa using here), List.filter_nil, List.cons_append]

/-- The keys of a map that insertions build. -/
theorem map_fst_ofList (members : List (K × V)) :
    (ofList norm members).map Prod.fst = firstSpellings norm (members.map Prod.fst) := by
  induction members using List.reverseRecOn with
  | nil => rfl
  | append_singleton members member inductionHypothesis =>
      have present : norm member.1 ∈ (ofList norm members).map (fun other => norm other.1) ↔
          norm member.1 ∈ (members.map Prod.fst).map norm := by
        have spellings : norm member.1 ∈ (firstSpellings norm (members.map Prod.fst)).map norm ↔
            norm member.1 ∈ (members.map Prod.fst).map norm := mem_map_firstSpellings
        rw [← inductionHypothesis, List.map_map] at spellings
        exact spellings
      rw [ofList_append_singleton, map_fst_insert, List.map_append, List.map_singleton,
        firstSpellings_append_singleton, inductionHypothesis]
      simp only [present]

/-- Members without a repeated key are kept as they stand. -/
theorem ofList_of_distinct {members : List (K × V)} (distinct : Distinct norm members) :
    ofList norm members = members := by
  induction members using List.reverseRecOn with
  | nil => rfl
  | append_singleton members member inductionHypothesis =>
      rw [Distinct, List.map_append, List.nodup_append] at distinct
      obtain ⟨distinctInit, -, apart⟩ := distinct
      rw [ofList_append_singleton, inductionHypothesis distinctInit]
      refine insert_of_notMem ?_
      intro present
      exact apart _ present _ (by simp) rfl

section Collapse

variable {κ V : Type} [DecidableEq κ]

/-- Each distinct key once, in the order of first occurrences, with the value
of its last occurrence. -/
def collapse (members : List (κ × V)) : List (κ × V) :=
  (members.map Prod.fst).eraseDups.filterMap fun key =>
    (members.reverse.lookup key).map fun value => (key, value)

private theorem collapse_append_singleton (members : List (κ × V)) (key : κ) (value : V) :
    collapse (members ++ [(key, value)]) =
      ((members.map Prod.fst).eraseDups ++
          (if key ∈ members.map Prod.fst then [] else [key])).filterMap fun other =>
        (if other = key then some value else members.reverse.lookup other).map
          fun found => (other, found) := by
  rw [collapse, List.map_append, List.eraseDups_append, List.reverse_append]
  congr 1
  · funext other
    by_cases same : other = key
    · simp [same]
    · have apart : (other == key) = false := by simpa using same
      simp [List.lookup_cons, apart, same]
  · congr 1
    simp only [List.map_cons, List.map_nil, List.removeAll, List.elem_eq_mem]
    by_cases present : key ∈ members.map Prod.fst
    · simp [present]
    · simp [present, List.eraseDups_cons]

/-- Building a map by insertion and reading the last value of each key at its
first position are the same. -/
theorem ofList_eq_collapse (members : List (κ × V)) :
    ofList (fun key : κ => key) members = collapse members := by
  induction members using List.reverseRecOn with
  | nil => rfl
  | append_singleton members member inductionHypothesis =>
      obtain ⟨key, value⟩ := member
      have keys : (ofList (fun key : κ => key) members).map Prod.fst =
          (members.map Prod.fst).eraseDups := by
        rw [inductionHypothesis, collapse, List.map_filterMap]
        refine (List.filterMap_congr ?_).trans List.filterMap_some
        intro other member
        have present : (members.reverse.lookup other).isSome := by
          rw [List.lookup_isSome_iff]
          obtain ⟨pair, pairMember, rfl⟩ := List.mem_map.mp (List.mem_eraseDups.mp member)
          exact ⟨pair, by simpa using pairMember, by simp⟩
        obtain ⟨found, located⟩ := Option.isSome_iff_exists.mp present
        simp [located]
      rw [ofList_append_singleton, collapse_append_singleton]
      have distinct := distinct_ofList (fun key : κ => key) members
      by_cases present : key ∈ members.map Prod.fst
      · rw [if_pos present, List.append_nil,
          insert_of_mem distinct (by
            change key ∈ (ofList (fun key : κ => key) members).map Prod.fst
            rw [keys]
            exact List.mem_eraseDups.mpr present),
          inductionHypothesis, collapse, List.map_filterMap]
        refine List.filterMap_congr ?_
        intro other otherMember
        by_cases same : other = key
        · subst same
          have some : (members.reverse.lookup other).isSome := by
            rw [List.lookup_isSome_iff]
            obtain ⟨pair, pairMember, rfl⟩ := List.mem_map.mp present
            exact ⟨pair, by simpa using pairMember, by simp⟩
          obtain ⟨found, located⟩ := Option.isSome_iff_exists.mp some
          simp [located]
        · cases members.reverse.lookup other <;> simp [same]
      · rw [if_neg present,
          insert_of_notMem (by
            change key ∉ (ofList (fun key : κ => key) members).map Prod.fst
            rw [keys]
            exact fun member => present (List.mem_eraseDups.mp member)),
          inductionHypothesis, collapse, List.filterMap_append]
        congr 1
        · refine List.filterMap_congr ?_
          intro other otherMember
          have apart : other ≠ key := by
            rintro rfl
            exact present (List.mem_eraseDups.mp otherMember)
          rw [if_neg apart]
        · simp

/-- Members without a repeated key are kept as they stand. -/
theorem collapse_of_distinct {members : List (κ × V)}
    (distinct : (members.map Prod.fst).Nodup) : collapse members = members := by
  rw [← ofList_eq_collapse]
  exact ofList_of_distinct distinct

/-- The keys and values are given as functions of something else. -/
theorem collapse_map {α : Type} (key : α → κ) (value : α → V) (items : List α) :
    collapse (items.map fun item => (key item, value item)) =
      (items.map key).eraseDups.filterMap fun k =>
        (items.reverse.find? fun item => key item == k).map fun item => (k, value item) := by
  have found : ∀ (items : List α) (k : κ),
      (items.map fun item => (key item, value item)).lookup k =
        (items.find? fun item => key item == k).map value := by
    intro items k
    induction items with
    | nil => rfl
    | cons item items inductionHypothesis =>
        rw [List.map_cons, List.lookup_cons, List.find?_cons, inductionHypothesis,
          BEq.comm (b := key item)]
        cases key item == k <;> rfl
  rw [collapse, List.map_map, ← List.map_reverse]
  congr 1
  funext k
  rw [found, Option.map_map]
  rfl

/-- Only the last value of a key counts. -/
theorem collapse_congr {α : Type} {key : α → κ} {value value' : α → V} {items : List α}
    (same : ∀ item ∈ items,
      (key item, value item) ∈ collapse (items.map fun item => (key item, value item)) →
        value' item = value item) :
    collapse (items.map fun item => (key item, value' item)) =
      collapse (items.map fun item => (key item, value item)) := by
  rw [collapse_map] at same ⊢
  rw [collapse_map]
  apply List.filterMap_congr
  intro k listed
  cases last : items.reverse.find? fun item => key item == k with
  | none => rfl
  | some item =>
      have member : item ∈ items := List.mem_reverse.mp (List.mem_of_find?_eq_some last)
      have isMatch := List.find?_some last
      have sameKey : key item = k := eq_of_beq isMatch
      have counts : (key item, value item) ∈ (items.map key).eraseDups.filterMap fun k =>
          (items.reverse.find? fun item => key item == k).map fun item => (k, value item) := by
        rw [List.mem_filterMap]
        refine ⟨k, listed, ?_⟩
        rw [last, sameKey]
        rfl
      rw [Option.map_some, Option.map_some, same item member counts]

theorem mem_of_mem_collapse {members : List (κ × V)} {member : κ × V}
    (here : member ∈ collapse members) : member ∈ members := by
  rw [collapse, List.mem_filterMap] at here
  obtain ⟨key, -, found⟩ := here
  obtain ⟨value, last, rfl⟩ := Option.map_eq_some_iff.mp found
  obtain ⟨before, after, split, -⟩ := List.lookup_eq_some_iff.mp last
  apply List.mem_reverse.mp
  rw [split]
  exact List.mem_append_right before List.mem_cons_self

/-- No key is lost. -/
theorem mem_keys_collapse {members : List (κ × V)} {key : κ}
    (here : key ∈ members.map Prod.fst) : key ∈ (collapse members).map Prod.fst := by
  obtain ⟨member, listed, rfl⟩ := List.mem_map.mp here
  have present : (members.reverse.lookup member.1).isSome := by
    rw [List.lookup_isSome_iff]
    exact ⟨member, List.mem_reverse.mpr listed, by simp⟩
  obtain ⟨value, last⟩ := Option.isSome_iff_exists.mp present
  refine List.mem_map.mpr ⟨(member.1, value), ?_, rfl⟩
  rw [collapse, List.mem_filterMap]
  refine ⟨member.1, List.mem_eraseDups.mpr here, ?_⟩
  rw [last]
  rfl

end Collapse

end Dotten.Library.OrderedMap
