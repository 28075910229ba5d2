/-
Module: Dotten.Memory.JsonClient
Layer: Memory
Purpose: Programs that use the JSON functions of the library, as sequences of
  calls on values that they hold.  The calls are written once over an interface,
  which the functions with blocks and those without both provide; one call takes
  what is held before it to what is held after it.
Imports: Dotten.Memory.OwnedJsonParserBlocks, Dotten.Memory.OwnedJsonStringify
Main exports: JsonApi, Client, Call, Client.step, Client.run, Client.destroyAll,
  heapApi, plainApi, owns_run, owns_destroyAll, keeps_run
-/
import Dotten.Memory.OwnedJsonParserBlocks
import Dotten.Memory.OwnedJsonStringify

namespace Dotten

open Dotten.Library

/-- What makes a value: a constructor, or the parser. -/
inductive Maker (D : Type) where
  | null
  | boolean (value : Int)
  | number (value : D)
  | string (value : Option CString)
  | array
  | object
  | parse (text : Option CString)

/-- The functions of json.h, over a representation `V` of values and `T` of the
texts that the caller has to free. -/
structure JsonApi (D σ V T : Type) where
  make : Maker D → Prog Schedule σ (Option V)
  arrayAdd : V → Option V → Prog Schedule σ (TenErrorCode × V)
  objectSet : V → Option CString → Option V → Prog Schedule σ (TenErrorCode × V)
  stringify : Option V → Prog Schedule σ (Option T)
  destroy : Option V → Prog Schedule σ Unit
  free : T → Prog Schedule σ Unit

/-- A call on values that are held.  The number of a value that is not held
stands for NULL. -/
inductive Call (D : Type) where
  | make (maker : Maker D)
  | arrayAdd (json value : Nat)
  | objectSet (json : Nat) (key : Option CString) (value : Nat)
  | stringify (json : Nat)
  | destroy (json : Nat)
  | free (text : Nat)

/-- What a program holds, the values and texts that it has not given away or
freed; and the codes that its calls have returned, the last one first. -/
structure Client (V T : Type) where
  values : List V
  texts : List T
  codes : List TenErrorCode

namespace Client

/-- A program that has made no call. -/
def start {V T : Type} : Client V T := { values := [], texts := [], codes := [] }

section Functions

variable {D σ V T : Type}

/-- A call that may take a value: what is held after it. -/
def settle (others : List V) (value : Option V) (reply : TenErrorCode × V) : List V :=
  if reply.1 = .ok then reply.2 :: others else reply.2 :: (value.toList ++ others)

/-- A value that is held and another argument that is held, or NULL. -/
def arguments (client : Client V T) (json value : Nat) : Option (V × Option V × List V) :=
  (pick client.values json).map fun picked =>
    match pick picked.2 value with
    | none => (picked.1, none, picked.2)
    | some (item, others) => (picked.1, some item, others)

/-- A call that may take one of the values that are held. -/
def callWith (client : Client V T) (json value : Nat)
    (call : V → Option V → Prog Schedule σ (TenErrorCode × V)) : Prog Schedule σ (Client V T) :=
  match client.arguments json value with
  | none => return client
  | some (json, value, others) => do
      let reply ← call json value
      return { client with
        values := settle others value reply
        codes := reply.1 :: client.codes }

/-- One call. -/
def step (api : JsonApi D σ V T) (client : Client V T) (call : Call D) :
    Prog Schedule σ (Client V T) :=
  match call with
  | .make maker => do
      let made ← api.make maker
      return { client with values := made.toList ++ client.values }
  | .arrayAdd json value => client.callWith json value api.arrayAdd
  | .objectSet json key value => client.callWith json value fun json => api.objectSet json key
  | .stringify json => do
      let text ← api.stringify client.values[json]?
      return { client with texts := text.toList ++ client.texts }
  | .destroy json =>
      match pick client.values json with
      | none => do
          api.destroy none
          return client
      | some (json, others) => do
          api.destroy (some json)
          return { client with values := others }
  | .free text =>
      match pick client.texts text with
      | none => return client
      | some (text, others) => do
          api.free text
          return { client with texts := others }

/-- A sequence of calls. -/
def run (api : JsonApi D σ V T) : List (Call D) → Client V T → Prog Schedule σ (Client V T)
  | [], client => return client
  | call :: calls, client => do
      let client ← client.step api call
      run api calls client

/-- Giving back everything that is held. -/
def destroyAll (api : JsonApi D σ V T) (client : Client V T) : Prog Schedule σ PUnit := do
  client.values.forM fun json => api.destroy (some json)
  client.texts.forM fun text => api.free text

end Functions

end Client

section Interfaces

variable (D : Type) [CDouble D]

/-- The functions of json.c with their blocks. -/
def heapApi : JsonApi D Heap (OwnedJson D) OwnedText where
  make
    | .null => Heap.tenJsonCreateNull
    | .boolean value => Heap.tenJsonCreateBool value
    | .number value => Heap.tenJsonCreateNumber value
    | .string value => Heap.tenJsonCreateString value
    | .array => Heap.tenJsonCreateArray
    | .object => Heap.tenJsonCreateObject
    | .parse text => Heap.tenJsonParse text
  arrayAdd := Heap.tenJsonArrayAdd
  objectSet := Heap.tenJsonObjectSet
  stringify := Heap.tenJsonStringify
  destroy := Heap.tenJsonDestroy
  free text := Heap.tenFree (some text.block)

/-- The functions of json.c on values without blocks, where a text has nothing that is
freed. -/
def plainApi : JsonApi D World (JsonNode D) CString where
  make
    | .null => tenJsonCreateNull
    | .boolean value => tenJsonCreateBool value
    | .number value => tenJsonCreateNumber value
    | .string value => tenJsonCreateString value
    | .array => tenJsonCreateArray
    | .object => tenJsonCreateObject
    | .parse text => tenJsonParse text
  arrayAdd := tenJsonArrayAdd
  objectSet := tenJsonObjectSet
  stringify := tenJsonStringify
  destroy := tenJsonDestroy
  free _ := return ()

end Interfaces

section Holding

variable {V T : Type}

/-- The two arguments and the other values are the values. -/
theorem Client.arguments_perm {client : Client V T} {i j : Nat} {json : V} {value : Option V}
    {others : List V} (split : client.arguments i j = some (json, value, others)) :
    client.values.Perm (json :: (value.toList ++ others)) := by
  obtain ⟨⟨found, rest⟩, picked, same⟩ := Option.map_eq_some_iff.mp split
  refine (pick_perm picked).trans ?_
  cases second : pick rest j with
  | none =>
      rw [second] at same
      cases same
      exact List.Perm.refl _
  | some pair =>
      obtain ⟨item, left⟩ := pair
      rw [second] at same
      cases same
      exact (pick_perm second).cons _

end Holding

section Ownership

variable {D : Type} {grants : Schedule} {keys : CString → Prop}

/-- What a program owns. -/
def Client.blocks (client : Client (OwnedJson D) OwnedText) : Multiset Nat :=
  (client.values.map OwnedJson.blocks).sum + (client.texts.map OwnedText.blocks).sum

/-- The values that are held are in order. -/
def Client.Sound (keys : CString → Prop) (client : Client (OwnedJson D) OwnedText) : Prop :=
  ∀ json ∈ client.values, json.Sound keys

/-- The key that the call enters, and every string that can be read somewhere in a
text that it parses, have the property. -/
def Call.Named (grants : Schedule) (keys : CString → Prop) : Call D → Prop
  | .objectSet _ key _ => ∀ text, key = some text → keys text
  | .make (.parse text) => ∀ bytes, text = some bytes → KeysWithin grants bytes.bytes keys
  | _ => True

theorem settle_sum {α : Type} (owns : α → Multiset Nat) (others : List α) (value : Option α)
    (reply : TenErrorCode × α) :
    ((Client.settle others value reply).map owns).sum =
      Heap.afterSet owns (ownsOption owns value) reply + (others.map owns).sum := by
  unfold Client.settle Heap.afterSet
  split
  · rw [List.map_cons, List.sum_cons, add_zero]
  · rw [List.map_cons, List.sum_cons, List.map_append, List.sum_append, sum_toList, add_assoc]

theorem settle_sound {others : List (OwnedJson D)} {value : Option (OwnedJson D)}
    {reply : TenErrorCode × OwnedJson D} (replySound : reply.2.Sound keys)
    (othersSound : ∀ json ∈ value.toList ++ others, json.Sound keys) :
    ∀ json ∈ Client.settle others value reply, json.Sound keys := by
  unfold Client.settle
  split
  · exact List.forall_mem_cons.mpr
      ⟨replySound, fun json member => othersSound json (List.mem_append_right _ member)⟩
  · exact List.forall_mem_cons.mpr ⟨replySound, othersSound⟩

/-- A call that may take one of the values that are held. -/
theorem owns_callWith {client : Client (OwnedJson D) OwnedText} (sound : client.Sound keys)
    (i j : Nat) {call : OwnedJson D → Option (OwnedJson D) → Heap.Op (TenErrorCode × OwnedJson D)}
    (owns : ∀ {json value}, json.Sound keys → Heap.NewValue keys value →
      Heap.Owns grants (json.blocks + ownsOption OwnedJson.blocks value) (call json value)
        (Heap.afterSet OwnedJson.blocks (ownsOption OwnedJson.blocks value))
        (fun reply => reply.2.Sound keys)) :
    Heap.Owns grants client.blocks (client.callWith i j call) Client.blocks
      (Client.Sound keys) := by
  unfold Client.callWith
  cases split : client.arguments i j with
  | none => exact Transfers.pure rfl sound
  | some picked =>
      obtain ⟨json, value, others⟩ := picked
      have same := Client.arguments_perm split
      have members : ∀ node ∈ json :: (value.toList ++ others), node.Sound keys :=
        fun node member => sound node (same.mem_iff.mpr member)
      have valueSound : Heap.NewValue keys value := by
        rintro node rfl
        exact members node (List.mem_cons_of_mem _ (List.mem_append_left _ (by simp)))
      refine Transfers.call
        ((others.map OwnedJson.blocks).sum + (client.texts.map OwnedText.blocks).sum)
        (owns (members json List.mem_cons_self) valueSound) ?_ ?_
      · rw [Client.blocks, (same.map _).sum_eq, List.map_cons, List.sum_cons, List.map_append,
          List.sum_append, sum_toList]
        abel
      · intro reply replySound
        refine Transfers.pure ?_ (settle_sound replySound
          fun node member => members node (List.mem_cons_of_mem _ member))
        rw [Client.blocks, settle_sum, add_assoc]

variable [CDouble D]

theorem owns_make (apart : HashesApart keys) {maker : Maker D}
    (named : (Call.make maker).Named grants keys) :
    Heap.Owns grants 0 ((heapApi D).make maker) (ownsOption OwnedJson.blocks)
      (Heap.NewValue keys) := by
  cases maker with
  | null => exact Heap.owns_tenJsonCreateNull
  | boolean value => exact Heap.owns_tenJsonCreateBool value
  | number value => exact Heap.owns_tenJsonCreateNumber value
  | string value => exact Heap.owns_tenJsonCreateString value
  | array =>
      refine Heap.owns_tenJsonCreateArray.conseq rfl (fun _ _ => rfl) ?_
      rintro reply made json rfl
      obtain ⟨self, list, rfl, valid, empty⟩ := made json rfl
      exact .array valid (by rw [empty]; exact List.forall_mem_nil _)
  | object =>
      refine Heap.owns_tenJsonCreateObject.conseq rfl (fun _ _ => rfl) ?_
      rintro reply made json rfl
      obtain ⟨self, object, rfl, valid, noKeys, noEntries⟩ := made json rfl
      exact .object valid (by rw [noKeys]; exact List.forall_mem_nil _)
        (by rw [noEntries]; exact List.forall_mem_nil _)
  | parse text => exact Heap.owns_tenJsonParse apart named

/-- One call takes what the program owned before to what it owns after. -/
theorem owns_step (apart : HashesApart keys) {client : Client (OwnedJson D) OwnedText}
    (sound : client.Sound keys) {call : Call D} (named : call.Named grants keys) :
    Heap.Owns grants client.blocks (client.step (heapApi D) call) Client.blocks
      (Client.Sound keys) := by
  cases call with
  | make maker =>
      refine Transfers.call client.blocks (owns_make apart named) (zero_add _).symm ?_
      intro made madeSound
      refine Transfers.pure ?_ ?_
      · simp only [Client.blocks, List.map_append, List.sum_append, sum_toList, add_assoc]
      · intro json member
        rcases List.mem_append.mp member with new | old
        · exact madeSound json (Option.mem_toList.mp new)
        · exact sound json old
  | arrayAdd i j =>
      exact owns_callWith sound i j fun jsonSound valueSound =>
        Heap.owns_tenJsonArrayAdd jsonSound valueSound
  | objectSet i key j =>
      exact owns_callWith sound i j fun jsonSound valueSound =>
        Heap.owns_tenJsonObjectSet apart jsonSound named valueSound
  | stringify i =>
      have held : ownsOption OwnedJson.blocks client.values[i]? ≤ client.blocks := by
        cases found : client.values[i]? with
        | none => exact Multiset.zero_le _
        | some json =>
            exact (le_sum_of_mem OwnedJson.blocks (List.mem_of_getElem? found)).trans
              (Multiset.le_add_right _ _)
      refine Transfers.bind (Heap.owns_tenJsonStringify
        (fun json found => sound json (List.mem_of_getElem? found)) held) ?_
      intro text _
      refine Transfers.pure ?_ sound
      simp only [Client.blocks, List.map_append, List.sum_append, sum_toList]
      abel
  | destroy i =>
      simp only [Client.step]
      cases picked : pick client.values i with
      | none =>
          refine Transfers.call client.blocks
            (Heap.owns_tenJsonDestroy apart (Heap.newValue_none (D := D)))
            (zero_add _).symm ?_
          rintro ⟨⟩ -
          exact Transfers.pure (zero_add _) sound
      | some pair =>
          obtain ⟨json, others⟩ := pair
          have same := pick_perm picked
          have members := fun node member => sound node (same.mem_iff.mpr member)
          refine Transfers.call
            ((others.map OwnedJson.blocks).sum + (client.texts.map OwnedText.blocks).sum)
            (Heap.owns_destroyJson apart (members json List.mem_cons_self)) ?_ ?_
          · rw [Client.blocks, (same.map _).sum_eq, List.map_cons, List.sum_cons, add_assoc]
          rintro ⟨⟩ -
          exact Transfers.pure (zero_add _)
            fun node member => members node (List.mem_cons_of_mem _ member)
  | free i =>
      simp only [Client.step]
      cases picked : pick client.texts i with
      | none => exact Transfers.pure rfl sound
      | some pair =>
          obtain ⟨text, others⟩ := pair
          refine Transfers.call
            ((client.values.map OwnedJson.blocks).sum + (others.map OwnedText.blocks).sum)
            (Heap.owns_tenFree (some text.block)) ?_ ?_
          · rw [Client.blocks, ((pick_perm picked).map _).sum_eq, List.map_cons, List.sum_cons,
              Heap.ofPointer_some, OwnedText.blocks]
            abel
          rintro ⟨⟩ -
          exact Transfers.pure (zero_add _) sound

/-- A sequence of calls. -/
theorem owns_run (apart : HashesApart keys) (calls : List (Call D)) :
    ∀ client : Client (OwnedJson D) OwnedText, client.Sound keys →
      (∀ call ∈ calls, call.Named grants keys) →
        Heap.Owns grants client.blocks (Client.run (heapApi D) calls client) Client.blocks
          (Client.Sound keys) := by
  induction calls with
  | nil =>
      intro client sound _
      exact Transfers.pure rfl sound
  | cons call calls inductionHypothesis =>
      intro client sound named
      refine Transfers.bind (owns_step apart sound (named call List.mem_cons_self)) ?_
      intro after afterSound
      exact inductionHypothesis after afterSound
        fun other member => named other (List.mem_cons_of_mem _ member)

theorem owns_destroyAll (apart : HashesApart keys) {client : Client (OwnedJson D) OwnedText}
    (sound : client.Sound keys) :
    Heap.Owns grants client.blocks (client.destroyAll (heapApi D)) (fun _ => 0)
      fun _ => True := by
  refine Transfers.call (client.texts.map OwnedText.blocks).sum
    (Transfers.forM fun json member => Heap.owns_destroyJson apart (sound json member)) rfl ?_
  rintro ⟨⟩ -
  rw [zero_add]
  exact Transfers.forM fun text _ => Heap.owns_tenFree (some text.block)

end Ownership

section Forgetting

variable {D : Type}

/-- What a program holds, without the blocks. -/
def Client.forget (client : Client (OwnedJson D) OwnedText) : Client (JsonNode D) CString where
  values := client.values.map OwnedJson.forget
  texts := client.texts.map OwnedText.text
  codes := client.codes

theorem pick_map {α β : Type} (f : α → β) (items : List α) (i : Nat) :
    pick (items.map f) i = (pick items i).map (Prod.map f (List.map f)) := by
  unfold pick
  rw [List.getElem?_map, Option.map_map, Option.map_map, List.eraseIdx_map]
  rfl

theorem arguments_forget (client : Client (OwnedJson D) OwnedText) (i j : Nat) :
    client.forget.arguments i j = (client.arguments i j).map
      (Prod.map OwnedJson.forget (Prod.map (Option.map OwnedJson.forget)
        (List.map OwnedJson.forget))) := by
  unfold Client.arguments Client.forget
  dsimp only
  rw [pick_map, Option.map_map, Option.map_map]
  refine congrArg (Option.map · _) ?_
  funext picked
  dsimp only [Function.comp_apply, Prod.map]
  rw [pick_map]
  cases pick picked.2 j with
  | none => rfl
  | some pair => rfl

theorem settle_map {V W : Type} (f : V → W) (others : List V) (value : Option V)
    (reply : TenErrorCode × V) :
    (Client.settle others value reply).map f =
      Client.settle (others.map f) (value.map f) (Prod.map id f reply) := by
  have optional : value.toList.map f = (value.map f).toList := by
    cases value with
    | none => rfl
    | some item => rfl
  unfold Client.settle
  dsimp only [Prod.map, id]
  split
  · rw [List.map_cons]
  · rw [List.map_cons, List.map_append, optional]

theorem keeps_callWith {client : Client (OwnedJson D) OwnedText} (i j : Nat)
    {call : OwnedJson D → Option (OwnedJson D) → Heap.Op (TenErrorCode × OwnedJson D)}
    {plain : JsonNode D → Option (JsonNode D) → Ten (TenErrorCode × JsonNode D)}
    (keeps : ∀ json value, Heap.Keeps Heap.seenReply (call json value)
      (plain json.forget (value.map OwnedJson.forget))) :
    Heap.Keeps Client.forget (client.callWith i j call) (client.forget.callWith i j plain) := by
  unfold Client.callWith
  rw [arguments_forget]
  cases client.arguments i j with
  | none => exact Simulates.pure rfl
  | some picked =>
      obtain ⟨json, value, others⟩ := picked
      refine Erases.bind (keeps json value) fun reply => Simulates.pure ?_
      unfold Client.forget
      dsimp only
      rw [settle_map]
      rfl

variable [CDouble D]

theorem keeps_make (maker : Maker D) :
    Heap.Keeps (Option.map OwnedJson.forget) ((heapApi D).make maker) ((plainApi D).make maker) := by
  cases maker with
  | null => exact Heap.keeps_tenJsonCreateNull
  | boolean value => exact Heap.keeps_tenJsonCreateBool value
  | number value => exact Heap.keeps_tenJsonCreateNumber value
  | string value => exact Heap.keeps_tenJsonCreateString value
  | array => exact Heap.keeps_tenJsonCreateArray
  | object => exact Heap.keeps_tenJsonCreateObject
  | parse text => exact Heap.keeps_tenJsonParse text

theorem unseen_free (text : OwnedText) : Unseen Heap.SameRequests ((heapApi D).free text) :=
  Heap.unseen_tenFree (some text.block)

theorem keeps_step (client : Client (OwnedJson D) OwnedText) (call : Call D) :
    Heap.Keeps Client.forget (client.step (heapApi D) call)
      (client.forget.step (plainApi D) call) := by
  cases call with
  | make maker =>
      refine Erases.bind (keeps_make maker) fun made => Simulates.pure ?_
      cases made with
      | none => rfl
      | some json => rfl
  | arrayAdd i j => exact keeps_callWith i j Heap.keeps_tenJsonArrayAdd
  | objectSet i key j =>
      exact keeps_callWith i j fun json value => Heap.keeps_tenJsonObjectSet json key value
  | stringify i =>
      have same : client.forget.values[i]? = client.values[i]?.map OwnedJson.forget :=
        List.getElem?_map
      simp only [Client.step]
      rw [same]
      refine Erases.bind (Heap.keeps_tenJsonStringify _) fun text => Simulates.pure ?_
      cases text with
      | none => rfl
      | some text => rfl
  | destroy i =>
      have same : pick client.forget.values i = _ := pick_map OwnedJson.forget client.values i
      simp only [Client.step]
      rw [same]
      cases pick client.values i with
      | none =>
          exact Erases.bind (Heap.keeps_tenJsonDestroy (D := D) none) fun _ => Simulates.pure rfl
      | some picked =>
          exact Erases.bind (Heap.keeps_tenJsonDestroy (some picked.1)) fun _ => Simulates.pure rfl
  | free i =>
      have same : pick client.forget.texts i = _ := pick_map OwnedText.text client.texts i
      simp only [Client.step]
      rw [same]
      cases pick client.texts i with
      | none => exact Simulates.pure rfl
      | some picked =>
          exact Simulates.skip (unseen_free _) fun _ => Simulates.pure rfl

/-- A sequence of calls does on values with blocks what it does on values
without. -/
theorem keeps_run (calls : List (Call D)) :
    ∀ client : Client (OwnedJson D) OwnedText,
      Heap.Keeps Client.forget (Client.run (heapApi D) calls client)
        (Client.run (plainApi D) calls client.forget) := by
  induction calls with
  | nil => exact fun client => Simulates.pure rfl
  | cons call calls inductionHypothesis =>
      exact fun client => Erases.bind (keeps_step client call) inductionHypothesis

end Forgetting

end Dotten
