/-
Module: Dotten.Memory.OwnedJsonStringify
Layer: Memory
Purpose: The printer of json.c with its blocks.  It reads every block of a value
  and changes none; the string it builds the text in is destroyed, and the caller
  gets one block with the text.
Imports: Dotten.Memory.OwnedJsonForget, Dotten.Json.TenJsonStringify
Main exports: Heap.tenJsonStringifyValue, Heap.tenJsonStringify, Heap.Emits,
  Heap.owns_tenJsonStringify, Heap.keeps_tenJsonStringify
-/
import Dotten.Memory.OwnedJsonForget
import Dotten.Json.TenJsonStringify

namespace Dotten

open Dotten.Library
open Dotten.Library.BucketTable

namespace Heap

/-- `ten_string_append(out, text)` as a statement. -/
def tenStringPut (out : OwnedString) (text : Bytes) : Op OwnedString := do
  let (_, out) ← tenStringAppend out (CString.ofMemory (text ++ [0]))
  return out

/-- What appends a piece of text to the output. -/
abbrev Emitter := OwnedString → Op OwnedString

section Functions

/-- The loop of `ten__json_stringify_escape_string`, which reads the source byte
by byte. -/
def tenJsonStringifyChars (source : Nat) : Bytes → Emitter
  | [], out => do
      access source
      return out
  | c :: s, out => do
      access source
      let out ← tenStringPut out (tenJsonEscapeByte c)
      tenJsonStringifyChars source s out

/-- `ten__json_stringify_escape_string` of the text of a string. -/
def tenJsonStringifyEscapeString (source : OwnedString) : Emitter := fun out => do
  let out ← tenStringPut out (asciiBytes ['"'])
  let out ← tenJsonStringifyChars source.string.addr source.string.cstr.bytes out
  tenStringPut out (asciiBytes ['"'])

/-- `if (i > 0) ten_string_append(out, ",")`. -/
def tenJsonStringifyComma (i : Nat) : Emitter := fun out =>
  if i > 0 then tenStringPut out (asciiBytes [',']) else return out

/-- The loops over elements and members: `fetch i` reads the `i`-th and returns
what prints it. -/
def tenJsonStringifyItems (fetch : Nat → Op Emitter) : Nat → Nat → Emitter
  | _, 0, out => return out
  | i, left + 1, out => do
      let emit ← fetch i
      let out ← tenJsonStringifyComma i out
      let out ← emit out
      tenJsonStringifyItems fetch (i + 1) left out

/-- The reading of the `i`-th element. -/
def tenJsonFetchElement (array : OwnedList Emitter) (i : Nat) : Op Emitter := do
  let some element ← tenListGet array i
    | stuck
  return element

/-- `case TEN_JSON_ARRAY`, with the elements as what prints them. -/
def tenJsonStringifyArray (array : OwnedList Emitter) : Emitter := fun out => do
  let count ← tenListCount array
  let out ← tenStringPut out (asciiBytes ['['])
  let out ← tenJsonStringifyItems (tenJsonFetchElement array) 0 count out
  tenStringPut out (asciiBytes [']'])

/-- The reading of the `i`-th member. -/
def tenJsonFetchMember (object : OwnedObject Emitter) (i : Nat) : Op Emitter := do
  let some key ← tenListGet object.keyOrder i
    | stuck
  let _ ← tenStringCstr key
  let some value ← tenMapGet object.entries key.string.pointer
    | stuck
  return fun out => do
    let out ← tenJsonStringifyEscapeString key out
    let out ← tenStringPut out (asciiBytes [':'])
    value out

/-- `case TEN_JSON_OBJECT`, with the values as what prints them. -/
def tenJsonStringifyObject (object : OwnedObject Emitter) : Emitter := fun out => do
  let count ← tenListCount object.keyOrder
  let out ← tenStringPut out (asciiBytes ['{'])
  let out ← tenJsonStringifyItems (tenJsonFetchMember object) 0 count out
  tenStringPut out (asciiBytes ['}'])

/-- The read of `json->type`, and what the case of the type appends. -/
def stringifyAround (self : Nat) (emit : Emitter) : Emitter := fun out => do
  access self
  emit out

variable {D : Type} [CDouble D]

mutual

/-- `ten__json_stringify_value`. -/
def tenJsonStringifyValue : OwnedJson D → Emitter
  | .null self =>
      stringifyAround self fun out => tenStringPut out (asciiBytes ['n', 'u', 'l', 'l'])
  | .boolean self value =>
      stringifyAround self fun out =>
        tenStringPut out
          (if value then asciiBytes ['t', 'r', 'u', 'e']
            else asciiBytes ['f', 'a', 'l', 's', 'e'])
  | .number self value =>
      stringifyAround self fun out => tenStringPut out (tenJsonStringifyNumber value)
  | .string self value =>
      stringifyAround self fun out => do
        let _ ← tenStringCstr value
        tenJsonStringifyEscapeString value out
  | .array self ⟨list, data, ⟨type, elementSize, items, capacity⟩⟩ =>
      stringifyAround self
        (tenJsonStringifyArray ⟨list, data, ⟨type, elementSize, emitItems items, capacity⟩⟩)
  | .object self ⟨⟨entries, block, ⟨keyType, valueType, keySize, valueSize, buckets, bucketCount,
      count⟩⟩, keyOrder⟩ =>
      stringifyAround self
        (tenJsonStringifyObject
          ⟨⟨entries, block, ⟨keyType, valueType, keySize, valueSize, emitBuckets buckets,
            bucketCount, count⟩⟩, keyOrder⟩)

def emitItems : List (OwnedJson D) → List Emitter
  | [] => []
  | item :: rest => tenJsonStringifyValue item :: emitItems rest

def emitBuckets : List (List (MapEntry CharPtr (Cell (OwnedJson D)))) →
    List (List (MapEntry CharPtr (Cell Emitter)))
  | [] => []
  | chain :: rest => emitChain chain :: emitBuckets rest

def emitChain : List (MapEntry CharPtr (Cell (OwnedJson D))) →
    List (MapEntry CharPtr (Cell Emitter))
  | [] => []
  | ⟨hash, pointer, ⟨entry, key, value, content⟩⟩ :: rest =>
      ⟨hash, pointer, ⟨entry, key, value, tenJsonStringifyValue content⟩⟩ :: emitChain rest

end

/-- `ten_json_stringify`. -/
def tenJsonStringify (json : Option (OwnedJson D)) : Op (Option OwnedText) :=
  match json with
  | none => do
      tenSetError .nullArgument
      return none
  | some json => do
      let some out ← tenStringEmpty
        | return none
      let out ← tenJsonStringifyValue json out
      let _ ← tenStringCstr out
      let length ← tenStringLength out
      let result ← tenMemdup (some out.string.addr) out.string.data (length + 1)
      tenStringDestroy (some out)
      let some (block, data) := result
        | return none
      tenSetError .ok
      return some { block, text := CString.ofMemory data }

theorem emitItems_eq (items : List (OwnedJson D)) :
    emitItems items = items.map tenJsonStringifyValue := by
  induction items with
  | nil => rfl
  | cons item rest inductionHypothesis =>
      rw [emitItems, inductionHypothesis, List.map_cons]

theorem emitChain_eq (chain : List (MapEntry CharPtr (Cell (OwnedJson D)))) :
    emitChain chain = chain.map fun entry =>
      { hash := entry.hash, key := entry.key, value := entry.value.map tenJsonStringifyValue } := by
  induction chain with
  | nil => rfl
  | cons entry rest inductionHypothesis =>
      rw [emitChain, inductionHypothesis, List.map_cons]
      rfl

theorem emitBuckets_eq (buckets : List (List (MapEntry CharPtr (Cell (OwnedJson D))))) :
    emitBuckets buckets = buckets.map fun chain => chain.map fun entry =>
      { hash := entry.hash, key := entry.key, value := entry.value.map tenJsonStringifyValue } := by
  induction buckets with
  | nil => rfl
  | cons chain rest inductionHypothesis =>
      rw [emitBuckets, inductionHypothesis, emitChain_eq, List.map_cons]

/-- The elements of an array are printed by `ten__json_stringify_value`. -/
theorem tenJsonStringifyValue_array (self : Nat) (list : OwnedList (OwnedJson D)) :
    tenJsonStringifyValue (.array self list) =
      stringifyAround self (tenJsonStringifyArray (list.mapItems tenJsonStringifyValue)) := by
  have sameList : ({ list with
      list := { list.list with items := emitItems list.list.items } } : OwnedList Emitter) =
        list.mapItems tenJsonStringifyValue := by
    rw [emitItems_eq]
    rfl
  rw [← sameList]
  rfl

/-- The values of an object are printed by `ten__json_stringify_value`. -/
theorem tenJsonStringifyValue_object (self : Nat) (object : OwnedObject (OwnedJson D)) :
    tenJsonStringifyValue (.object self object) =
      stringifyAround self
        (tenJsonStringifyObject (object.mapContents tenJsonStringifyValue)) := by
  have sameTable : ({ object.entries.map with
      buckets := emitBuckets object.entries.map.buckets } : TenMap CharPtr (Cell Emitter)) =
        object.entries.map.mapValues (Cell.map tenJsonStringifyValue) := by
    rw [emitBuckets_eq]
    rfl
  unfold OwnedObject.mapContents OwnedMap.mapContents
  rw [← sameTable]
  rfl

end Functions

section Ownership

variable {grants : Schedule} {given : Multiset Nat}

/-- What prints leaves everything in place but the output, which may move. -/
def Emits (grants : Schedule) (given : Multiset Nat) (emit : Emitter) : Prop :=
  ∀ out, Owns grants (given + out.blocks) (emit out) (fun out => given + out.blocks) fun _ => True

theorem emits_tenStringPut (text : Bytes) : Emits grants given fun out => tenStringPut out text := by
  intro out
  refine Transfers.call given (owns_tenStringAppend out _) (add_comm _ _) ?_
  rintro ⟨rc, out⟩ -
  exact Transfers.pure (add_comm _ _) trivial

theorem Emits.bind {first next : Emitter} (head : Emits grants given first)
    (tail : Emits grants given next) :
    Emits grants given (fun out => do
      let out ← first out
      next out) := by
  intro out
  exact Transfers.bind (head out) fun out _ => tail out

/-- A read of what is there, before something is printed. -/
theorem Emits.read {α : Type} {read : Op α} {fact : α → Prop} {emit : α → Emitter}
    (reads : Owns grants given read (fun _ => given) fact)
    (continues : ∀ a, fact a → Emits grants given (emit a)) :
    Emits grants given (fun out => do
      let a ← read
      emit a out) := by
  intro out
  exact Transfers.call out.blocks reads rfl fun a holds => continues a holds out

theorem emits_tenJsonStringifyChars {source : Nat} (held : source ∈ given) (s : Bytes) :
    Emits grants given (tenJsonStringifyChars source s) := by
  induction s with
  | nil =>
      exact Emits.read (owns_access held) fun _ _ out => Transfers.pure rfl trivial
  | cons c s inductionHypothesis =>
      refine Emits.read (owns_access held) fun _ _ => ?_
      exact (emits_tenStringPut _).bind inductionHypothesis

theorem emits_tenJsonStringifyEscapeString {source : OwnedString}
    (held : source.blocks ≤ given) : Emits grants given (tenJsonStringifyEscapeString source) :=
  (emits_tenStringPut _).bind <|
    (emits_tenJsonStringifyChars (Multiset.mem_of_le held source.addr_mem) _).bind
      (emits_tenStringPut _)

theorem emits_tenJsonStringifyComma (i : Nat) :
    Emits grants given (tenJsonStringifyComma i) := by
  intro out
  exact Transfers.ite (fun _ => emits_tenStringPut _ out) fun _ => Transfers.pure rfl trivial

theorem emits_tenJsonStringifyItems {fetch : Nat → Op Emitter} {bound : Nat}
    (fetches : ∀ i < bound, Owns grants given (fetch i) (fun _ => given) (Emits grants given)) :
    ∀ left i, i + left = bound → Emits grants given (tenJsonStringifyItems fetch i left) := by
  intro left
  induction left with
  | zero =>
      intro i _ out
      exact Transfers.pure rfl trivial
  | succ left inductionHypothesis =>
      intro i within
      refine Emits.read (fetches i (by omega)) fun emit emits => ?_
      exact (emits_tenJsonStringifyComma i).bind
        (emits.bind (inductionHypothesis (i + 1) (by omega)))

theorem emits_stringifyAround {self : Nat} (held : self ∈ given) {emit : Emitter}
    (emits : Emits grants given emit) : Emits grants given (stringifyAround self emit) :=
  Emits.read (owns_access held) fun _ _ => emits

section Containers

variable {V : Type} {emit : V → Emitter}

theorem emits_tenJsonStringifyArray {list : OwnedList V} (valid : list.Valid)
    (held : list.blocks ≤ given) (each : ∀ item ∈ list.list.items, Emits grants given (emit item)) :
    Emits grants given (tenJsonStringifyArray (list.mapItems emit)) := by
  have valid' : (list.mapItems emit).Valid := OwnedList.valid_mapItems valid
  refine Emits.read (owns_tenListCount _ (Multiset.mem_of_le held list.self_mem)) ?_
  rintro count rfl
  refine (emits_tenStringPut _).bind ((emits_tenJsonStringifyItems ?_ _ 0 (Nat.zero_add _)).bind
    (emits_tenStringPut _))
  intro i within
  change i < (list.forget emit).items.length at within
  rw [list.length_forget emit] at within
  have found : (list.mapItems emit).list.items[i]? = some (emit list.list.items[i]) := by
    change (list.forget emit).items[i]? = _
    rw [list.getElem?_forget emit, List.getElem?_eq_getElem within]
    rfl
  refine Transfers.bind (owns_tenListGet valid' found held) ?_
  rintro element rfl
  exact Transfers.pure rfl (each _ (List.getElem_mem within))

theorem emits_tenJsonStringifyObject {object : OwnedObject V} (valid : object.Valid)
    (held : object.blocks ≤ given)
    (each : ∀ entry ∈ object.entries.map.entries, Emits grants given (emit entry.value.content)) :
    Emits grants given (tenJsonStringifyObject (object.mapContents emit)) := by
  have entriesHeld : object.entries.blocks ≤ given :=
    ((Multiset.le_add_right _ _).trans (Multiset.le_add_right _ _)).trans held
  have listHeld : object.keyOrder.blocks ≤ given :=
    ((Multiset.le_add_left _ _).trans (Multiset.le_add_right _ _)).trans held
  have stringsHeld : (object.keys.map OwnedString.blocks).sum ≤ given :=
    (Multiset.le_add_left _ _).trans held
  have keyHeld : ∀ key ∈ object.keys, key.blocks ≤ given :=
    fun key member => (le_sum_of_mem OwnedString.blocks member).trans stringsHeld
  have stored : ∀ entry ∈ (object.mapContents emit).entries.map.entries,
      entry.key.addr ∈ given := by
    change ∀ entry ∈ (object.entries.map.mapValues (Cell.map emit)).buckets.flatten, _
    rw [flatten_mapValues]
    refine List.forall_mem_map.mpr fun entry member => ?_
    have here : entry.key.addr ∈ (object.keys.map OwnedString.blocks).sum :=
      addr_mem_of_entry valid member
    exact Multiset.mem_of_le stringsHeld here
  refine Emits.read (owns_tenListCount _ (Multiset.mem_of_le listHeld object.keyOrder.self_mem)) ?_
  rintro count rfl
  refine (emits_tenStringPut _).bind ((emits_tenJsonStringifyItems ?_ _ 0 (Nat.zero_add _)).bind
    (emits_tenStringPut _))
  intro i within
  change i < object.keys.length at within
  have member : object.keys[i] ∈ object.keys := List.getElem_mem within
  have here := keyHeld _ member
  refine Transfers.bind (owns_tenListGet valid.keyOrder (List.getElem?_eq_getElem within)
    listHeld) ?_
  rintro reply rfl
  refine Transfers.bind (owns_tenStringCstr object.keys[i]
    (Multiset.mem_of_le here object.keys[i].self_mem)) ?_
  rintro - -
  have mapHeld : (object.mapContents emit).entries.blocks ≤ given := by
    change (object.entries.mapContents emit).blocks ≤ given
    rw [OwnedMap.blocks_mapContents]
    exact entriesHeld
  refine Transfers.bind (owns_tenMapGet mapHeld
    (readable_of_held (Multiset.mem_of_le here object.keys[i].addr_mem) stored)) ?_
  rintro slot rfl
  rw [object.find_mapContents emit]
  obtain ⟨entry, found, -⟩ := valid.find_of_mem member
  rw [found]
  refine Transfers.pure rfl ?_
  exact (emits_tenJsonStringifyEscapeString here).bind ((emits_tenStringPut _).bind
    (each entry (valid.table.entries.find_eq_some found).1))

end Containers

variable {D : Type} [CDouble D] {keys : CString → Prop}

/-- A value that is held is printed without touching anything else. -/
theorem emits_tenJsonStringifyValue {json : OwnedJson D} (sound : json.Sound keys)
    (held : json.blocks ≤ given) : Emits grants given (tenJsonStringifyValue json) := by
  induction sound with
  | null self =>
      exact emits_stringifyAround (Multiset.mem_of_le held (OwnedJson.null self).self_mem)
        (emits_tenStringPut _)
  | boolean self value =>
      exact emits_stringifyAround
        (Multiset.mem_of_le held (OwnedJson.boolean self value).self_mem) (emits_tenStringPut _)
  | number self value =>
      exact emits_stringifyAround
        (Multiset.mem_of_le held (OwnedJson.number self value).self_mem) (emits_tenStringPut _)
  | @string self value valid =>
      have stringHeld : value.blocks ≤ given := (Multiset.le_add_left _ _).trans held
      refine emits_stringifyAround
        (Multiset.mem_of_le held (OwnedJson.string (D := D) self value).self_mem) ?_
      exact Emits.read (owns_tenStringCstr value (Multiset.mem_of_le stringHeld value.self_mem))
        fun _ _ => emits_tenJsonStringifyEscapeString stringHeld
  | @array self list valid items each =>
      have selfHeld := Multiset.mem_of_le held (OwnedJson.array self list).self_mem
      rw [OwnedJson.blocks_array] at held
      rw [tenJsonStringifyValue_array]
      refine emits_stringifyAround selfHeld (emits_tenJsonStringifyArray valid
        (((Multiset.le_add_left _ _).trans (Multiset.le_add_right _ _)).trans held) ?_)
      exact fun item member => each item member
        (((le_sum_of_mem OwnedJson.blocks member).trans (Multiset.le_add_left _ _)).trans held)
  | @object self object valid named values each =>
      have selfHeld := Multiset.mem_of_le held (OwnedJson.object self object).self_mem
      rw [OwnedJson.blocks_object] at held
      rw [tenJsonStringifyValue_object]
      refine emits_stringifyAround selfHeld (emits_tenJsonStringifyObject valid
        (((Multiset.le_add_left _ _).trans (Multiset.le_add_right _ _)).trans held) ?_)
      intro entry member
      refine each entry member ?_
      have part := le_sum_of_mem (fun entry : MapEntry CharPtr (Cell (OwnedJson D)) =>
        entry.value.content.blocks) member
      exact (part.trans (Multiset.le_add_left _ _)).trans held

/-- What the caller gets is a block of its own; everything else is as it was. -/
theorem owns_tenJsonStringify {json : Option (OwnedJson D)}
    (sound : ∀ node, json = some node → node.Sound keys)
    (held : ownsOption OwnedJson.blocks json ≤ given) :
    Owns grants given (tenJsonStringify json) (fun reply => given + ownsOption OwnedText.blocks reply)
      fun _ => True := by
  cases json with
  | none =>
      refine Transfers.bind (owns_tenSetError _) ?_
      rintro ⟨⟩ -
      exact Transfers.pure (add_zero _).symm trivial
  | some node =>
      refine Transfers.call given owns_tenStringEmpty (zero_add _).symm ?_
      rintro (_ | out) -
      · exact Transfers.pure (by simp) trivial
      refine Transfers.bind ((emits_tenJsonStringifyValue (sound node rfl) held out).conseq
        (add_comm _ _) (fun _ _ => rfl) fun _ holds => holds) ?_
      rintro out -
      have selfHeld : out.self ∈ given + out.blocks :=
        Multiset.mem_add.mpr (.inr out.self_mem)
      have addrHeld : out.string.addr ∈ given + out.blocks :=
        Multiset.mem_add.mpr (.inr out.addr_mem)
      refine Transfers.bind (owns_tenStringCstr out selfHeld) ?_
      rintro - -
      refine Transfers.bind (owns_tenStringLength out selfHeld) ?_
      rintro length -
      refine Transfers.bind (owns_tenMemdup (Multiset.singleton_le.mpr addrHeld) _ _) ?_
      rintro reply -
      refine Transfers.call (given + ofPointer (reply.map Prod.fst))
        (owns_tenStringDestroy (some out)) ?_ ?_
      · rw [ownsOption_some]
        abel
      rintro ⟨⟩ -
      rw [zero_add]
      rcases reply with _ | ⟨block, data⟩
      · exact Transfers.pure rfl trivial
      · refine Transfers.bind (owns_tenSetError _) ?_
        rintro ⟨⟩ -
        exact Transfers.pure rfl trivial

end Ownership

section Forgetting

/-- The emitter appends what the plain one appends. -/
def EmitsAs (emit : Emitter) (plain : Dotten.Emitter) : Prop :=
  ∀ out, Keeps OwnedString.string (emit out) (plain out.string)

theorem emitsAs_tenStringPut (text : Bytes) :
    EmitsAs (fun out => tenStringPut out text) (fun out => Dotten.tenStringPut out text) := by
  intro out
  refine Erases.bind (keeps_tenStringAppend out _) ?_
  rintro ⟨rc, out⟩
  exact Simulates.pure rfl

theorem EmitsAs.bind {first next : Emitter} {plainFirst plainNext : Dotten.Emitter}
    (head : EmitsAs first plainFirst) (tail : EmitsAs next plainNext) :
    EmitsAs (fun out => do
        let out ← first out
        next out)
      (fun out => do
        let out ← plainFirst out
        plainNext out) := by
  intro out
  exact Erases.bind (head out) tail

theorem emitsAs_tenJsonStringifyChars (source : Nat) (s : Bytes) :
    EmitsAs (tenJsonStringifyChars source s) (Dotten.tenJsonStringifyChars s) := by
  induction s with
  | nil => exact fun out => Simulates.skip (unseen_access _) fun _ => Simulates.pure rfl
  | cons c s inductionHypothesis =>
      intro out
      refine Simulates.skip (unseen_access _) fun _ => ?_
      exact (emitsAs_tenStringPut _).bind inductionHypothesis out

theorem emitsAs_tenJsonStringifyEscapeString (source : OwnedString) :
    EmitsAs (tenJsonStringifyEscapeString source)
      (Dotten.tenJsonStringifyEscapeString source.string.cstr) :=
  (emitsAs_tenStringPut _).bind <|
    (emitsAs_tenJsonStringifyChars _ _).bind (emitsAs_tenStringPut _)

theorem emitsAs_tenJsonStringifyComma (i : Nat) :
    EmitsAs (tenJsonStringifyComma i) (Dotten.tenJsonStringifyComma i) := by
  intro out
  exact Simulates.ite (fun _ => emitsAs_tenStringPut _ out) fun _ => Simulates.pure rfl

theorem emitsAs_tenJsonStringifyItems {fetch : Nat → Op Emitter} {plain : Nat → Ten Dotten.Emitter}
    (fetches : ∀ i, Simulates SameRequests EmitsAs (fetch i) (plain i)) (i left : Nat) :
    EmitsAs (tenJsonStringifyItems fetch i left) (Dotten.tenJsonStringifyItems plain i left) := by
  induction left generalizing i with
  | zero => exact fun out => Simulates.pure rfl
  | succ left inductionHypothesis =>
      intro out
      refine Simulates.bind (fetches i) fun emit plainEmit emits => ?_
      exact (emitsAs_tenJsonStringifyComma i).bind
        (emits.bind (inductionHypothesis (i + 1))) out

section Containers

variable {V : Type} {emit : V → Emitter} {plain : V → Dotten.Emitter}

/-- What is read from a list of emitters. -/
theorem simulates_tenListGet (list : OwnedList V) (index : Nat)
    (each : ∀ item ∈ list.list.items, EmitsAs (emit item) (plain item)) :
    Simulates SameRequests (Option.Rel EmitsAs) (tenListGet (list.mapItems emit) index)
      (Dotten.tenListGet (list.forget plain) index) := by
  refine Simulates.skip (unseen_access _) fun _ => ?_
  unfold Dotten.tenListGet
  have found : (list.mapItems emit).list.items[index]? = list.list.items[index]?.map emit :=
    list.getElem?_forget emit index
  rw [found, list.getElem?_forget plain]
  cases located : list.list.items[index]? with
  | none =>
      exact Simulates.bind (keeps_tenSetError _) fun _ _ _ => Simulates.pure .none
  | some item =>
      refine Simulates.bind (keeps_tenSetError _) fun _ _ _ =>
        Simulates.skip (unseen_deref _) fun _ => Simulates.pure ?_
      exact .some (each item (List.mem_of_getElem? located))

theorem emitsAs_tenJsonStringifyArray (list : OwnedList V)
    (each : ∀ item ∈ list.list.items, EmitsAs (emit item) (plain item)) :
    EmitsAs (tenJsonStringifyArray (list.mapItems emit))
      (Dotten.tenJsonStringifyArray (list.forget plain)) := by
  intro out
  have counted := keeps_tenListCount id (list.mapItems emit)
  have sameCount : Dotten.tenListCount ((list.mapItems emit).forget id) =
      Dotten.tenListCount (list.forget plain) := by
    unfold Dotten.tenListCount
    have sameLength : (list.mapItems emit).list.items.length = list.list.items.length :=
      list.length_forget emit
    rw [OwnedList.length_forget, OwnedList.length_forget, sameLength]
  rw [sameCount] at counted
  refine Erases.bind counted fun count => ?_
  refine (emitsAs_tenStringPut _).bind
    ((emitsAs_tenJsonStringifyItems (fun i => ?_) 0 count).bind (emitsAs_tenStringPut _)) out
  refine Simulates.bind (simulates_tenListGet list i each) ?_
  rintro _ _ (⟨emits⟩ | _)
  · exact Simulates.pure emits
  · exact simulates_stuck _

/-- What is read from a map of emitters. -/
theorem simulates_tenMapGet (owned : OwnedMap CharPtr V) (key : CharPtr)
    (each : ∀ entry ∈ owned.map.buckets.flatten,
      EmitsAs (emit entry.value.content) (plain entry.value.content)) :
    Simulates SameRequests (Option.Rel EmitsAs) (tenMapGet (owned.mapContents emit) key)
      (Dotten.tenMapGet (owned.forget plain) (some key)) := by
  refine Simulates.read (yields_tenMapFind _ key) ?_
  have found : Dotten.tenMapFind (owned.mapContents emit).map key = _ :=
    tenMapFind_mapValues (Cell.map emit) owned.map key
  unfold Dotten.tenMapGet
  dsimp only
  rw [found, find_forget]
  cases located : Dotten.tenMapFind owned.map key with
  | none => exact Simulates.bind (keeps_tenSetError _) fun _ _ _ => Simulates.pure .none
  | some entry =>
      refine Simulates.bind (keeps_tenSetError _) fun _ _ _ =>
        Simulates.skip (unseen_access _) fun _ => Simulates.pure ?_
      exact .some (each entry (mem_of_tenMapFind located))

theorem emitsAs_tenJsonStringifyObject (object : OwnedObject V)
    (each : ∀ entry ∈ object.entries.map.buckets.flatten,
      EmitsAs (emit entry.value.content) (plain entry.value.content)) :
    EmitsAs (tenJsonStringifyObject (object.mapContents emit))
      (Dotten.tenJsonStringifyObject (object.forget plain)) := by
  intro out
  refine Erases.bind (keeps_tenListCount OwnedString.string object.keyOrder) fun count => ?_
  refine (emitsAs_tenStringPut _).bind
    ((emitsAs_tenJsonStringifyItems (fun i => ?_) 0 count).bind (emitsAs_tenStringPut _)) out
  refine Simulates.bind (keeps_tenListGet OwnedString.string object.keyOrder i) ?_
  rintro (_ | key) _ rfl
  · exact simulates_stuck _
  refine Simulates.bind (keeps_tenStringCstr key) fun _ _ _ => ?_
  refine Simulates.bind (simulates_tenMapGet object.entries key.string.pointer each) ?_
  rintro _ _ (⟨emits⟩ | _)
  · exact Simulates.pure ((emitsAs_tenJsonStringifyEscapeString key).bind
      ((emitsAs_tenStringPut _).bind emits))
  · exact simulates_stuck _

end Containers

theorem emitsAs_stringifyAround (self : Nat) {emit : Emitter} {plain : Dotten.Emitter}
    (emits : EmitsAs emit plain) : EmitsAs (stringifyAround self emit) plain :=
  fun out => Simulates.skip (unseen_access _) fun _ => emits out

variable {D : Type} [CDouble D]

theorem emitsAs_tenJsonStringifyValue (json : OwnedJson D) :
    EmitsAs (tenJsonStringifyValue json) (Dotten.tenJsonStringifyValue json.forget) := by
  induction json using OwnedJson.nested_induction with
  | null self => exact emitsAs_stringifyAround self (emitsAs_tenStringPut _)
  | boolean self value => exact emitsAs_stringifyAround self (emitsAs_tenStringPut _)
  | number self value => exact emitsAs_stringifyAround self (emitsAs_tenStringPut _)
  | string self value =>
      refine emitsAs_stringifyAround self fun out => ?_
      exact Erases.bind (keeps_tenStringCstr value) fun _ =>
        emitsAs_tenJsonStringifyEscapeString value out
  | array self list each =>
      have sameList : ({ list.forget OwnedJson.forget with
          items := (list.forget OwnedJson.forget).items.map Dotten.tenJsonStringifyValue } :
            TenList Dotten.Emitter) =
              list.forget fun item => Dotten.tenJsonStringifyValue item.forget := by
        simp only [OwnedList.forget, List.map_map]
        rfl
      rw [tenJsonStringifyValue_array, OwnedJson.forget_array,
        Dotten.tenJsonStringifyValue_array, sameList]
      exact emitsAs_stringifyAround self (emitsAs_tenJsonStringifyArray list each)
  | object self object each =>
      have sameTable : (object.entries.forget OwnedJson.forget).mapValues
          Dotten.tenJsonStringifyValue =
            object.entries.forget fun item => Dotten.tenJsonStringifyValue item.forget := by
        simp only [OwnedMap.forget, TenMap.mapValues, List.map_map, Function.comp_def]
      rw [tenJsonStringifyValue_object, OwnedJson.forget_object,
        Dotten.tenJsonStringifyValue_object]
      unfold OwnedObject.forget
      dsimp only
      rw [sameTable]
      exact emitsAs_stringifyAround self (emitsAs_tenJsonStringifyObject object each)

theorem keeps_tenJsonStringify (json : Option (OwnedJson D)) :
    Keeps (Option.map OwnedText.text) (tenJsonStringify json)
      (Dotten.tenJsonStringify (json.map OwnedJson.forget)) := by
  cases json with
  | none => exact Erases.bind (keeps_tenSetError _) fun _ => Simulates.pure rfl
  | some json =>
      refine Erases.bind keeps_tenStringEmpty ?_
      rintro (_ | out)
      · exact Simulates.pure rfl
      refine Erases.bind (emitsAs_tenJsonStringifyValue json out) fun out => ?_
      refine Simulates.read (yields_tenStringCstr out) <|
        Simulates.read (yields_tenStringLength out) ?_
      refine Erases.bind (keeps_tenMemdup _ _ _) fun reply => ?_
      refine Simulates.skip (unseen_tenStringDestroy _) fun _ => ?_
      rcases reply with _ | ⟨block, data⟩
      · exact Simulates.pure rfl
      · exact Erases.bind (keeps_tenSetError _) fun _ => Simulates.pure rfl

end Forgetting

end Heap

end Dotten
