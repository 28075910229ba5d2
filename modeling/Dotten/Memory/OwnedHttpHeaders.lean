/-
Module: Dotten.Memory.OwnedHttpHeaders
Layer: Memory
Purpose: The header store of http.c with its blocks: the array, and a block for
  every name and every value.
Imports: Dotten.Memory.OwnedString, Dotten.Memory.OwnedBuffer, Dotten.Http.TenHttp
Main exports: OwnedHeader, OwnedHeaders, OwnedHeaders.blocks,
  OwnedHeaders.forget, Heap.tenHttpCopy, Heap.tenHttpHeadersSet,
  Heap.tenHttpHeadersGet, Heap.tenHttpHeadersFree
-/
import Dotten.Memory.OwnedString
import Dotten.Memory.OwnedBuffer
import Dotten.Http.TenHttp

namespace Dotten

open Dotten.Library

/-- A `ten__http_header_pair_t`. -/
structure OwnedHeader where
  name : OwnedText
  value : OwnedText

def OwnedHeader.blocks (pair : OwnedHeader) : Multiset Nat := pair.name.blocks + pair.value.blocks

/-- A pair without its blocks. -/
def OwnedHeader.forget (pair : OwnedHeader) : CString × CString := (pair.name.text, pair.value.text)

/-- The header list of a message: the block that `headers` points to, the first
`header_count` pairs there, and `header_capacity`. -/
structure OwnedHeaders where
  block : Option Nat
  pairs : List OwnedHeader
  capacity : Nat
  placed : block = none → pairs = [] ∧ capacity = 0

namespace OwnedHeaders

/-- No headers, and no block for them. -/
def none : OwnedHeaders := { block := .none, pairs := [], capacity := 0, placed := fun _ => ⟨rfl, rfl⟩ }

/-- The blocks of a header list. -/
def blocks (headers : OwnedHeaders) : Multiset Nat :=
  Heap.ofPointer headers.block + (headers.pairs.map OwnedHeader.blocks).sum

/-- A header list without its blocks. -/
def forget (headers : OwnedHeaders) : TenHttpHeaders where
  pairs := headers.pairs.map OwnedHeader.forget
  capacity := headers.capacity

@[simp] theorem blocks_none : none.blocks = 0 := rfl

@[simp] theorem forget_none : none.forget = .none := rfl

theorem block_le (headers : OwnedHeaders) : Heap.ofPointer headers.block ≤ headers.blocks :=
  Multiset.le_add_right _ _

theorem pair_le {headers : OwnedHeaders} {pair : OwnedHeader} (member : pair ∈ headers.pairs) :
    pair.blocks ≤ headers.blocks :=
  (le_sum_of_mem OwnedHeader.blocks member).trans (Multiset.le_add_left _ _)

end OwnedHeaders

namespace Heap

/-- A string copied with `ten_memdup(text, strlen(text) + 1)`. -/
def tenHttpCopy (source : Option Nat) (text : CString) : Op (Option OwnedText) := do
  let copy ← tenMemdup source (text.bytes ++ [0]) (text.length + 1)
  return copy.map fun copy => { block := copy.1, text := CString.ofMemory copy.2 }

/-- The loop over the pairs: the first whose name is the given one. -/
def tenHttpHeadersFind (block : Option Nat) (name : CString) :
    List OwnedHeader → Op (Option Nat)
  | [] => return none
  | pair :: rest => do
      readBlock block 1
      access pair.name.block
      if tenCiStrcmp pair.name.text name = 0 then
        return some 0
      else
        let found ← tenHttpHeadersFind block name rest
        return found.map (· + 1)

/-- The end of `ten__http_headers_set`: a new pair in a block that has room. -/
def tenHttpHeadersPush (source : Option Nat) (headers : OwnedHeaders) (name value : CString) :
    Op (TenErrorCode × OwnedHeaders) := do
  let some nameCopy ← tenHttpCopy source name
    | return (.outOfMemory, headers)
  let some valueCopy ← tenHttpCopy source value
    | do
      tenFree (some nameCopy.block)
      return (.outOfMemory, headers)
  match headers with
  | { block := none, .. } => stuck
  | { block := some block, pairs, capacity, .. } => do
      access block
      return (.ok,
        { block := some block, pairs := pairs ++ [{ name := nameCopy, value := valueCopy }], capacity
          placed := fun none => by cases none })

/-- `ten__http_headers_set`, for the headers of the message in the block `owner`
and for strings in the block `source`, or outside the heap. -/
def tenHttpHeadersSet (owner : Nat) (source : Option Nat) (headers : OwnedHeaders)
    (name value : CString) : Op (TenErrorCode × OwnedHeaders) := do
  access owner
  match ← tenHttpHeadersFind headers.block name headers.pairs with
  | some i =>
      let some valueCopy ← tenHttpCopy source value
        | return (.outOfMemory, headers)
      match headers.pairs[i]? with
      | none => stuck
      | some pair => do
          readBlock headers.block 1
          tenFree (some pair.value.block)
          return (.ok,
            { headers with
              pairs := headers.pairs.set i { pair with value := valueCopy }
              placed := fun none => ⟨by rw [(headers.placed none).1]; rfl,
                (headers.placed none).2⟩ })
  | none =>
      if headers.pairs.length = headers.capacity then
        let newCapacity := if headers.capacity = 0 then 4 else headers.capacity * 2
        let some block ← tenRealloc headers.block
          | return (.outOfMemory, headers)
        tenHttpHeadersPush source
          { block := some block, pairs := headers.pairs, capacity := newCapacity
            placed := fun none => by cases none } name value
      else
        tenHttpHeadersPush source headers name value

/-- `ten__http_headers_get`. -/
def tenHttpHeadersGet (owner : Nat) (headers : OwnedHeaders) (name : CString) :
    Op (Option CString) := do
  access owner
  let found ← tenHttpHeadersFind headers.block name headers.pairs
  return found.bind fun i => headers.pairs[i]?.map fun pair => pair.value.text

/-- `ten__http_headers_free`. -/
def tenHttpHeadersFree (headers : OwnedHeaders) : Op Unit := do
  headers.pairs.forM fun pair => do
    readBlock headers.block 1
    tenFree (some pair.name.block)
    tenFree (some pair.value.block)
  tenFree headers.block

section Ownership

variable {grants : Schedule} {given : Multiset Nat}

theorem owns_tenHttpCopy {source : Option Nat} (held : ofPointer source ≤ given) (text : CString) :
    Owns grants given (tenHttpCopy source text)
      (fun reply => given + ownsOption OwnedText.blocks reply) fun _ => True := by
  refine Transfers.bind (owns_tenMemdup held _ _) ?_
  rintro (_ | copy) -
  · exact Transfers.pure rfl trivial
  · exact Transfers.pure rfl trivial

/-- Looking for a header reads names, and finds a pair or none. -/
theorem owns_tenHttpHeadersFind {block : Option Nat} (name : CString) {pairs : List OwnedHeader}
    (placed : block = none → pairs = []) (held : ofPointer block ≤ given)
    (names : ∀ pair ∈ pairs, pair.blocks ≤ given) :
    Owns grants given (tenHttpHeadersFind block name pairs) (fun _ => given)
      fun found => ∀ i, found = some i → i < pairs.length := by
  induction pairs with
  | nil =>
      refine Transfers.pure rfl ?_
      rintro i ⟨⟩
  | cons pair rest inductionHypothesis =>
      refine Transfers.bind (owns_readBlock (fun none => ?_) held) ?_
      · cases placed none
      rintro ⟨⟩ -
      have nameHeld : pair.name.block ∈ given := by
        apply Multiset.mem_of_le (names pair List.mem_cons_self)
        simp [OwnedHeader.blocks, OwnedText.blocks]
      refine Transfers.bind (owns_access nameHeld) ?_
      rintro ⟨⟩ -
      refine Transfers.ite (fun _ => Transfers.pure rfl ?_) fun _ => ?_
      · rintro i ⟨⟩
        exact Nat.zero_lt_succ _
      · refine Transfers.bind (inductionHypothesis (fun none => by cases placed none)
          fun other member => names other (List.mem_cons_of_mem _ member)) ?_
        rintro found within
        refine Transfers.pure rfl ?_
        intro i reached
        obtain ⟨j, there, rfl⟩ := Option.map_eq_some_iff.mp reached
        exact Nat.succ_lt_succ (within j there)

theorem owns_tenHttpHeadersPush {source : Option Nat} (held : ofPointer source ≤ given)
    {headers : OwnedHeaders} (some : headers.block ≠ none) (name value : CString) :
    Owns grants (headers.blocks + given) (tenHttpHeadersPush source headers name value)
      (fun reply => reply.2.blocks + given) fun _ => True := by
  refine Transfers.bind (owns_tenHttpCopy (held.trans (Multiset.le_add_left _ _)) name) ?_
  rintro (_ | nameCopy) -
  · exact Transfers.pure (add_zero _) trivial
  refine Transfers.bind (owns_tenHttpCopy
    ((held.trans (Multiset.le_add_left _ _)).trans (Multiset.le_add_right _ _)) value) ?_
  rintro (_ | valueCopy) -
  · refine Transfers.call (headers.blocks + given) (owns_tenFree (.some nameCopy.block)) ?_ ?_
    · simp [OwnedText.blocks, add_comm]
    rintro ⟨⟩ -
    exact Transfers.pure (zero_add _) trivial
  · obtain ⟨block, pairs, capacity, placed⟩ := headers
    cases block with
    | none => exact absurd rfl some
    | some block =>
        refine Transfers.bind (owns_access ?_) ?_
        · simp [OwnedHeaders.blocks]
        rintro ⟨⟩ -
        refine Transfers.pure ?_ trivial
        simp only [OwnedHeaders.blocks, OwnedHeader.blocks, List.map_append, List.map_singleton,
          List.sum_append, List.sum_singleton, ownsOption_some]
        abel

/-- What the headers own before and after a pair is replaced. -/
theorem blocks_set {headers : OwnedHeaders} {i : Nat} {pair : OwnedHeader}
    (there : headers.pairs[i]? = some pair) :
    ∃ others, headers.blocks = pair.blocks + others ∧
      ∀ other, ofPointer headers.block +
        ((headers.pairs.set i other).map OwnedHeader.blocks).sum = other.blocks + others := by
  obtain ⟨within, rfl⟩ := List.getElem?_eq_some_iff.mp there
  refine ⟨ofPointer headers.block + (((headers.pairs.take i).map OwnedHeader.blocks).sum +
    ((headers.pairs.drop (i + 1)).map OwnedHeader.blocks).sum), ?_, ?_⟩
  · have split : headers.pairs =
        headers.pairs.take i ++ headers.pairs[i] :: headers.pairs.drop (i + 1) := by simp
    rw [OwnedHeaders.blocks]
    conv_lhs => rw [split]
    rw [List.map_append, List.sum_append, List.map_cons, List.sum_cons]
    abel
  · intro other
    rw [List.set_eq_take_append_cons_drop, if_pos within, List.map_append, List.sum_append,
      List.map_cons, List.sum_cons]
    abel

/-- Setting a header frees the value that it replaces, and keeps everything else.
A header that there was no memory for leaves no copy behind. -/
theorem owns_tenHttpHeadersSet {owner : Nat} {source : Option Nat} (ownerHeld : owner ∈ given)
    (held : ofPointer source ≤ given) (headers : OwnedHeaders) (name value : CString) :
    Owns grants (headers.blocks + given) (tenHttpHeadersSet owner source headers name value)
      (fun reply => reply.2.blocks + given) fun _ => True := by
  refine Transfers.bind (owns_access (Multiset.mem_add.mpr (.inr ownerHeld))) ?_
  rintro ⟨⟩ -
  refine Transfers.bind (owns_tenHttpHeadersFind name (fun none => (headers.placed none).1)
    (headers.block_le.trans (Multiset.le_add_right _ _))
    fun pair member => (OwnedHeaders.pair_le member).trans (Multiset.le_add_right _ _)) ?_
  rintro (_ | i) within
  · refine Transfers.ite (fun _ => ?_) fun roomy => ?_
    · refine Transfers.call ((headers.pairs.map OwnedHeader.blocks).sum + given)
        (owns_tenRealloc headers.block) (add_assoc _ _ _) ?_
      rintro (_ | block) -
      · exact Transfers.pure (add_assoc _ _ _).symm trivial
      · refine (owns_tenHttpHeadersPush held (fun none => by cases none) name value).conseq ?_
          (fun _ _ => rfl) fun _ holds => holds
        exact (add_assoc _ _ _).symm
    · refine owns_tenHttpHeadersPush held (fun none => roomy ?_) name value
      rw [(headers.placed none).1, (headers.placed none).2]
      rfl
  · refine Transfers.bind (owns_tenHttpCopy (held.trans (Multiset.le_add_left _ _)) value) ?_
    rintro (_ | valueCopy) -
    · exact Transfers.pure (add_zero _) trivial
    cases there : headers.pairs[i]? with
    | none =>
        have outside := List.getElem?_eq_none_iff.mp there
        have inside := within i rfl
        omega
    | some pair =>
        obtain ⟨others, before, after⟩ := blocks_set there
        refine Transfers.bind (owns_readBlock (fun none => ?_) ?_) ?_
        · rw [(headers.placed none).1] at there
          cases there
        · exact (headers.block_le.trans (Multiset.le_add_right _ _)).trans
            (Multiset.le_add_right _ _)
        rintro ⟨⟩ -
        refine Transfers.call (pair.name.blocks + valueCopy.blocks + others + given)
          (owns_tenFree (some pair.value.block)) ?_ ?_
        · rw [before]
          simp only [OwnedHeader.blocks, OwnedText.blocks, ofPointer_some, ownsOption_some]
          abel
        rintro ⟨⟩ -
        refine Transfers.pure ?_ trivial
        have changed := after { pair with value := valueCopy }
        dsimp only [OwnedHeaders.blocks]
        rw [changed]
        simp only [OwnedHeader.blocks]
        abel

theorem owns_tenHttpHeadersGet {owner : Nat} (ownerHeld : owner ∈ given) {headers : OwnedHeaders}
    (held : headers.blocks ≤ given) (name : CString) :
    Owns grants given (tenHttpHeadersGet owner headers name) (fun _ => given) fun _ => True := by
  refine Transfers.bind (owns_access ownerHeld) ?_
  rintro ⟨⟩ -
  refine Transfers.bind (owns_tenHttpHeadersFind name (fun none => (headers.placed none).1)
    (headers.block_le.trans held) fun pair member => (OwnedHeaders.pair_le member).trans held) ?_
  rintro found -
  exact Transfers.pure rfl trivial

/-- Freeing the headers frees every name, every value and the array. -/
theorem owns_tenHttpHeadersFree (headers : OwnedHeaders) :
    Owns grants headers.blocks (tenHttpHeadersFree headers) (fun _ => 0) fun _ => True := by
  have each : ∀ pair ∈ headers.pairs,
      Owns grants (pair.blocks + ofPointer headers.block)
        (do
          readBlock headers.block 1
          tenFree (some pair.name.block)
          tenFree (some pair.value.block))
        (fun _ => ofPointer headers.block) fun _ => True := by
    intro pair member
    refine Transfers.bind (owns_readBlock (fun none => ?_) (Multiset.le_add_left _ _)) ?_
    · rw [(headers.placed none).1] at member
      cases member
    rintro ⟨⟩ -
    refine Transfers.call (pair.value.blocks + ofPointer headers.block)
      (owns_tenFree (some pair.name.block)) (add_assoc _ _ _) ?_
    rintro ⟨⟩ -
    rw [zero_add]
    exact ((owns_tenFree (some pair.value.block)).frame (ofPointer headers.block)).conseq rfl
      (fun _ _ => zero_add _) fun _ holds => holds
  refine Transfers.bind ((Transfers.forM_with each).conseq (add_comm _ _) (fun _ _ => rfl)
    fun _ holds => holds) ?_
  rintro ⟨⟩ -
  exact owns_tenFree headers.block

end Ownership

section Forgetting

theorem keeps_tenHttpCopy (source : Option Nat) (text : CString) :
    Keeps (Option.map OwnedText.text) (tenHttpCopy source text) (Dotten.tenHttpCopy text) := by
  refine Erases.bind (keeps_tenMemdup _ _ _) ?_
  rintro (_ | copy)
  · exact Simulates.pure rfl
  · exact Simulates.pure rfl

theorem yields_tenHttpHeadersFind (block : Option Nat) (name : CString)
    (pairs : List OwnedHeader) :
    Yields SameRequests (tenHttpHeadersFind block name pairs)
      ((pairs.map OwnedHeader.forget).findIdx? fun pair => tenCiStrcmp pair.1 name = 0) := by
  induction pairs with
  | nil => exact Yields.pure _
  | cons pair rest inductionHypothesis =>
      refine Yields.skip (unseen_readBlock _ _) fun _ => Yields.skip (unseen_access _) fun _ => ?_
      rw [List.map_cons, List.findIdx?_cons]
      change Yields _ _ (if decide (tenCiStrcmp pair.name.text name = 0) = true then _ else _)
      by_cases same : tenCiStrcmp pair.name.text name = 0
      · rw [if_pos same, if_pos (decide_eq_true same)]
        exact Yields.pure _
      · rw [if_neg same, if_neg (by simpa using same)]
        exact Yields.read inductionHypothesis (Yields.pure _)

theorem keeps_tenHttpHeadersPush (source : Option Nat) (headers : OwnedHeaders)
    (name value : CString) :
    Keeps (Prod.map id OwnedHeaders.forget) (tenHttpHeadersPush source headers name value)
      (Dotten.tenHttpHeadersPush headers.forget name value) := by
  refine Erases.bind (keeps_tenHttpCopy _ _) ?_
  rintro (_ | nameCopy)
  · exact Simulates.pure rfl
  refine Erases.bind (keeps_tenHttpCopy _ _) ?_
  rintro (_ | valueCopy)
  · exact Simulates.skip (unseen_tenFree _) fun _ => Simulates.pure rfl
  · obtain ⟨block, pairs, capacity, placed⟩ := headers
    cases block with
    | none => exact keeps_stuck _ _
    | some block =>
        refine Simulates.skip (unseen_access _) fun _ => Simulates.pure ?_
        simp [OwnedHeaders.forget, OwnedHeader.forget]

theorem keeps_tenHttpHeadersSet (owner : Nat) (source : Option Nat) (headers : OwnedHeaders)
    (name value : CString) :
    Keeps (Prod.map id OwnedHeaders.forget) (tenHttpHeadersSet owner source headers name value)
      (Dotten.tenHttpHeadersSet headers.forget name value) := by
  refine Simulates.skip (unseen_access _) fun _ => ?_
  refine Simulates.read (yields_tenHttpHeadersFind _ _ _) ?_
  unfold Dotten.tenHttpHeadersSet
  change Keeps _ _ (match (headers.pairs.map OwnedHeader.forget).findIdx?
    (fun pair => tenCiStrcmp pair.1 name = 0) with | some i => _ | none => _)
  cases (headers.pairs.map OwnedHeader.forget).findIdx?
      fun pair => tenCiStrcmp pair.1 name = 0 with
  | some i =>
      refine Erases.bind (keeps_tenHttpCopy _ _) ?_
      rintro (_ | valueCopy)
      · exact Simulates.pure rfl
      cases there : headers.pairs[i]? with
      | none => exact keeps_stuck _ _
      | some pair =>
          refine Simulates.skip (unseen_readBlock _ _) fun _ =>
            Simulates.skip (unseen_tenFree _) fun _ => Simulates.pure ?_
          change (TenErrorCode.ok, _) = (TenErrorCode.ok, _)
          refine congrArg (Prod.mk _) ?_
          rw [OwnedHeaders.forget, OwnedHeaders.forget, List.modify_eq_set_getElem?]
          simp [there, List.map_set, OwnedHeader.forget]
  | none =>
      have sameLength : headers.forget.pairs.length = headers.pairs.length := List.length_map _
      dsimp only
      rw [sameLength]
      refine Simulates.ite (fun _ => ?_) fun _ => keeps_tenHttpHeadersPush _ _ _ _
      refine Erases.bind (keeps_tenRealloc _) ?_
      rintro (_ | block)
      · exact Simulates.pure rfl
      · exact keeps_tenHttpHeadersPush _ _ _ _

theorem yields_tenHttpHeadersGet (owner : Nat) (headers : OwnedHeaders) (name : CString) :
    Yields SameRequests (tenHttpHeadersGet owner headers name)
      (Dotten.tenHttpHeadersGet headers.forget name) := by
  refine Yields.skip (unseen_access _) fun _ => Yields.read (yields_tenHttpHeadersFind _ _ _) ?_
  unfold Dotten.tenHttpHeadersGet
  rw [List.find?_eq_bind_findIdx?_getElem?]
  change Yields _ (pure (Option.bind _ _)) (Option.map _ (Option.bind (List.findIdx? _
    (headers.pairs.map OwnedHeader.forget)) _))
  cases (headers.pairs.map OwnedHeader.forget).findIdx?
      fun pair => tenCiStrcmp pair.1 name = 0 with
  | none => exact Yields.pure _
  | some i =>
      have same : (headers.pairs[i]?.map fun pair => pair.value.text) =
          (headers.pairs.map OwnedHeader.forget)[i]?.map Prod.snd := by
        rw [List.getElem?_map, Option.map_map]
        rfl
      rw [Option.bind_some, Option.bind_some, same]
      exact Yields.pure _

theorem unseen_tenHttpHeadersFree (headers : OwnedHeaders) :
    Unseen SameRequests (tenHttpHeadersFree headers) := by
  refine Unseen.bind (Unseen.forM fun pair => ?_) fun _ => unseen_tenFree _
  exact Unseen.bind (unseen_readBlock _ _) fun _ =>
    Unseen.bind (unseen_tenFree _) fun _ => unseen_tenFree _

end Forgetting

end Heap

end Dotten
