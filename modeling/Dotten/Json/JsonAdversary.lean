/-
Module: Dotten.Json.JsonAdversary
Layer: Json
Purpose: What an allocator that refuses as it likes can make of the calls of the
  parser: a string that keeps some of its characters, a map that has grown for a key
  that it does not get, and everything else as if nothing had been refused.
Imports: Dotten.Json.JsonParserComplete
Main exports: ShortString, serves_allows, allows_keptChars, allows_setOwned_turned
-/
import Dotten.Json.JsonParserComplete

namespace Dotten

open Dotten.Library

section Uniform

variable {K V α : Type} [KeyCell K] {answer : Bool}

theorem uniform_tenMapGet (map : TenMap K V) (key : K) :
    Uniform World.requests answer (tenMapGet map (some key)) := by
  rw [tenMapGet]
  cases tenMapFind map key with
  | none => exact (uniform_tenSetError answer _).bind fun _ => .pure _
  | some entry => exact (uniform_tenSetError answer _).bind fun _ => .pure _

theorem uniform_tenMapSetNew (map : TenMap K V) (key : K) (value : V) :
    Uniform World.requests answer (tenMapSetNew map key value) := by
  have linked : ∀ reply : TenErrorCode × TenMap K V, Uniform World.requests answer (do
      tenSetError .ok
      return reply) := fun reply => (uniform_tenSetError answer .ok).bind fun _ => .pure _
  apply (uniform_tenMalloc answer).bind
  rintro (_ | entry)
  · exact .pure _
  apply (uniform_tenMalloc answer).bind
  rintro (_ | keyCopy)
  · exact .pure _
  apply (uniform_tenMalloc answer).bind
  rintro (_ | valueCopy)
  · exact .pure _
  · exact linked _

omit [KeyCell K] in
theorem uniform_tenMapRehash (map : TenMap K V) (newBucketCount : Nat) :
    Uniform World.requests answer (tenMapRehash map newBucketCount) := by
  apply (uniform_tenMalloc answer).bind
  rintro (_ | table) <;> exact .pure _

theorem uniform_tenMapSet (map : TenMap K V) (key : K) (value : V) :
    Uniform World.requests answer (tenMapSet map (some key) (some value)) := by
  rw [tenMapSet]
  cases tenMapFind map key with
  | some entry => exact (uniform_tenSetError answer _).bind fun _ => .pure _
  | none =>
      dsimp only
      split
      · apply (uniform_tenMapRehash map _).bind
        rintro ⟨rc, grown⟩
        dsimp only
        split
        · exact (uniform_tenSetError answer _).bind fun _ => .pure _
        · exact uniform_tenMapSetNew grown key value
      · exact uniform_tenMapSetNew map key value

theorem uniform_tenMapRemove (map : TenMap K V) (key : K) :
    Uniform World.requests answer (tenMapRemove map (some key)) := by
  rw [tenMapRemove]
  split
  · exact (uniform_tenSetError answer _).bind fun _ => .pure _
  · exact (uniform_tenSetError answer _).bind fun _ => .pure _

theorem uniform_tenListAdd (list : TenList α) (value : α) :
    Uniform World.requests answer (tenListAdd list value) := by
  have grow : Uniform World.requests answer (tenListGrow list (list.items.length + 1)) := by
    rw [tenListGrow]
    split
    · exact .pure _
    · apply (uniform_tenMalloc answer).bind
      rintro (_ | block) <;> exact .pure _
  rw [tenListAdd, tenListInsert]
  split
  · exact (uniform_tenSetError answer _).bind fun _ => .pure _
  · apply grow.bind
    rintro ⟨rc, grown⟩
    dsimp only
    split
    · exact (uniform_tenSetError answer _).bind fun _ => .pure _
    · exact (uniform_tenSetError answer _).bind fun _ => .pure _

end Uniform

section Adversary

variable {D : Type}

/-- A text that fits the block that a string starts with. -/
def ShortString (content : Bytes) : Prop := content.length < tenStringInitialCapacity

theorem uniform_tenJsonAlloc {answer : Bool} (node : JsonNode D) :
    Uniform World.requests answer (tenJsonAlloc node) := by
  apply (uniform_tenMalloc answer).bind
  rintro (_ | block) <;> exact .pure _

theorem uniform_tenListCreate {α : Type} {answer : Bool} (type : TenType) :
    Uniform World.requests answer (tenListCreate (α := α) type) := by
  rw [tenListCreate]
  split
  · exact (uniform_tenSetError answer _).bind fun _ => .pure _
  · apply (uniform_tenMalloc answer).bind
    rintro (_ | block)
    · exact .pure _
    · exact (uniform_tenSetError answer _).bind fun _ => .pure _

theorem uniform_tenMapCreate {K V : Type} {answer : Bool} (keyType valueType : TenType) :
    Uniform World.requests answer (tenMapCreate (K := K) (V := V) keyType valueType) := by
  rw [tenMapCreate]
  split
  · exact (uniform_tenSetError answer _).bind fun _ => .pure _
  · apply (uniform_tenMalloc answer).bind
    rintro (_ | block)
    · exact .pure _
    apply (uniform_tenMalloc answer).bind
    rintro (_ | table)
    · exact .pure _
    · exact (uniform_tenSetError answer _).bind fun _ => .pure _

theorem uniform_tenStringEmpty {answer : Bool} : Uniform World.requests answer tenStringEmpty := by
  have alloc : Uniform World.requests answer (tenStringAlloc 1) := by
    apply (uniform_tenMalloc answer).bind
    rintro (_ | block)
    · exact .pure _
    apply (uniform_tenMalloc answer).bind
    rintro (_ | data) <;> exact .pure _
  apply alloc.bind
  rintro (_ | string)
  · exact .pure _
  · exact (uniform_tenSetError answer _).bind fun _ => .pure _

theorem uniform_tenJsonCreateArray {answer : Bool} :
    Uniform World.requests answer (tenJsonCreateArray (D := D)) := by
  apply (uniform_tenMalloc answer).bind
  rintro (_ | block)
  · exact .pure _
  apply (uniform_tenListCreate _).bind
  rintro (_ | list)
  · exact .pure _
  · exact (uniform_tenSetError answer _).bind fun _ => .pure _

theorem uniform_tenJsonCreateObject {answer : Bool} :
    Uniform World.requests answer (tenJsonCreateObject (D := D)) := by
  apply (uniform_tenMalloc answer).bind
  rintro (_ | block)
  · exact .pure _
  apply (uniform_tenMapCreate _ _).bind
  intro entries
  apply (uniform_tenListCreate _).bind
  intro keyOrder
  cases entries with
  | none => exact .pure _
  | some entries =>
      cases keyOrder with
      | none => exact .pure _
      | some keyOrder => exact (uniform_tenSetError answer _).bind fun _ => .pure _

theorem uniform_tenJsonObjectSetOwned {answer : Bool} (object : JsonObject (JsonNode D))
    (key : TenString) (value : JsonNode D) :
    Uniform World.requests answer (tenJsonObjectSetOwned object key value) := by
  apply (uniform_tenSetError answer _).bind
  intro _
  apply (uniform_tenMapGet object.entries key.pointer).bind
  rintro (_ | found)
  · apply (uniform_tenMapSet object.entries key.pointer value).bind
    rintro ⟨rc, entries⟩
    dsimp only
    split
    · exact .pure _
    apply (uniform_tenListAdd object.keyOrder key).bind
    rintro ⟨rc, keyOrder⟩
    dsimp only
    split
    · exact (uniform_tenMapRemove entries key.pointer).bind fun _ => .pure _
    · exact (uniform_tenSetError answer _).bind fun _ => .pure _
  · apply (uniform_tenMapSet object.entries key.pointer value).bind
    rintro ⟨rc, entries⟩
    dsimp only
    split
    · exact .pure _
    · exact ((silent_tenJsonDestroy _).uniform answer).bind fun _ =>
        (uniform_tenSetError answer _).bind fun _ => .pure _

theorem uniform_tenStringAppend {answer : Bool} (out : TenString) (text : CString) :
    Uniform World.requests answer (tenStringAppend out text) := by
  rw [tenStringAppend]
  dsimp only
  split
  · apply (uniform_tenMalloc answer).bind
    rintro (_ | block)
    · exact .pure _
    · exact (uniform_tenSetError answer _).bind fun _ => .pure _
  · exact (uniform_tenSetError answer _).bind fun _ => .pure _

theorem uniform_appendPieces {answer : Bool} (pieces : List CString) :
    ∀ out : TenString, Uniform World.requests answer (appendPieces out pieces) := by
  induction pieces with
  | nil => exact fun out => .pure out
  | cons piece pieces inductionHypothesis =>
      intro out
      apply (uniform_tenStringAppend out piece).bind
      rintro ⟨rc, string⟩
      exact inductionHypothesis string

/-- A block that never grows. -/
theorem capacity_putPieces (pieces : List Bytes) :
    ∀ state : Nat × TenString,
      (pieces.foldl (putPiece fun _ => false) state).2.capacity = state.2.capacity := by
  induction pieces with
  | nil =>
      intro state
      rfl
  | cons piece pieces inductionHypothesis =>
      intro state
      rw [List.foldl_cons, inductionHypothesis, putPiece]
      dsimp only
      split <;> rfl

/-- A string literal, read with no larger block than the first. -/
theorem allows_tenJsonParseString {text content : Bytes}
    (chars : CharsText Dialect.accepted text content) (rest : Bytes) (world : World) :
    Allows World.requests (tenJsonParseString (ascii '"' :: (text ++ ascii '"' :: rest))) world
      (fun reply _ => ∃ string, reply = some (string, rest) ∧ string.Valid ∧
        ShortString string.cstr.bytes) := by
  obtain ⟨pieces, -, reads⟩ := tenJsonParseString_eq chars
  rw [reads]
  apply Allows.bind
  apply uniform_tenStringEmpty.allows (b := true)
  apply tenStringEmpty_eq.mono
  rintro reply between (⟨refused, -⟩ | ⟨-, rfl, -⟩)
  · exact absurd ⟨rfl, rfl⟩ refused
  apply Allows.bind
  apply (uniform_appendPieces pieces _).allows (b := false)
  apply (appendPieces_putPiece pieces).mono
  intro string last put
  apply Allows.pure
  have noNul : ∀ piece ∈ pieces.map CString.bytes, (0 : Byte) ∉ piece := by
    intro piece member
    obtain ⟨text, -, rfl⟩ := List.mem_map.mp member
    exact text.noNul
  have valid := @putPieces_valid (fun _ => false) _ noNul
    (between.requests, emptyString (world.requests + 1)) (emptyString_valid _)
  have capacity := capacity_putPieces (pieces.map CString.bytes)
    (between.requests, emptyString (world.requests + 1))
  rw [← put] at valid capacity
  have fits := valid.fits
  rw [valid.length_eq, capacity] at fits
  exact ⟨string, rfl, valid, fits⟩

/-- The characters are kept that an adversary lets a string keep. -/
theorem allows_tenJsonParseChars {start last : TenString} {text : Bytes}
    (kept : KeptChars start text last) :
    ∀ {out : TenString} {steps : Nat} {world : World} (rest : Bytes), out.unplaced = start →
      out.Valid → text.length < steps →
      Allows World.requests (tenJsonParseChars steps out (text ++ ascii '"' :: rest)) world
        (fun reply _ => ∃ string, reply = some (string, rest) ∧ string.Valid ∧
          string.unplaced = last) := by
  induction kept with
  | nil =>
      intro out steps world rest same valid enough
      cases steps with
      | zero => omega
      | succ steps =>
          rw [List.nil_append, tenJsonParseChars, if_pos rfl]
          exact .pure ⟨out, rfl, valid, same⟩
  | cons answer denotes _ inductionHypothesis =>
      intro out steps world rest same valid enough
      rename_i text _
      obtain ⟨b, tail, buf, rfl, notQuote, read, content⟩ :=
        tenJsonStringItem_complete denotes (text ++ ascii '"' :: rest)
      cases steps with
      | zero => omega
      | succ steps =>
          have shorter : text.length < steps := by
            simp only [List.cons_append, List.length_cons, List.length_append] at enough
            omega
          rw [List.append_assoc]
          rw [List.cons_append] at read ⊢
          rw [tenJsonParseChars, if_neg notQuote, read]
          apply Allows.bind
          apply (uniform_tenStringAppend out _).allows (b := answer)
          apply ((tenStringAppend_spec valid _).and (tenStringAppend_putPiece out _)).mono
          rintro ⟨rc, next⟩ after ⟨⟨-, -, -, outcome⟩, put⟩
          have nextValid : next.Valid := by
            cases outcome with
            | appended nextValid _ => exact nextValid
            | refused _ => exact valid
          have placed := @putPiece_unplaced (fun _ => answer) world.requests out
            (CString.ofMemory (buf ++ [0])).bytes
          rw [← put, content, same] at placed
          exact inductionHypothesis rest placed nextValid shorter

/-- A string literal, kept in any way in which it can be kept. -/
theorem allows_keptChars {last : TenString} {text : Bytes}
    (kept : KeptChars (emptyString 0) text last) (rest : Bytes) (world : World) :
    Allows World.requests (tenJsonParseString (ascii '"' :: (text ++ ascii '"' :: rest))) world
      (fun reply _ => ∃ string, reply = some (string, rest) ∧ string.Valid ∧
        string.unplaced = last) := by
  rw [tenJsonParseString, if_neg (by simp)]
  apply Allows.bind
  apply uniform_tenStringEmpty.allows (b := true)
  apply tenStringEmpty_eq.mono
  rintro reply between (⟨refused, -⟩ | ⟨-, rfl, -⟩)
  · exact absurd ⟨rfl, rfl⟩ refused
  · apply allows_tenJsonParseChars kept rest rfl (emptyString_valid _)
    simp only [List.length_append]
    omega

/-- A full map may grow for a key whose entry is then refused. -/
theorem allows_tenMapSet_turned {K V : Type} [KeyCell K] {map : TenMap K V} (valid : map.Valid)
    (full : map.Full) {key : K} (absent : tenMapFind map key = none) (value : V) (world : World) :
    Allows World.requests (tenMapSet map (some key) (some value)) world (fun reply _ =>
      reply.1 = .outOfMemory ∧ map.Turned reply.2) := by
  unfold TenMap.Full at full
  simp only [tenMapSet, absent]
  rw [if_pos full]
  apply Allows.bind
  apply (uniform_tenMapRehash map _).allows (b := true)
  apply (tenMapRehash_order valid full).mono
  rintro ⟨code, grown⟩ between (⟨rfl, -, -, turned⟩ | ⟨-, -, shortage⟩)
  · simp only [ne_eq, not_true_eq_false, if_false]
    apply (uniform_tenMapSetNew grown key value).allows (b := false)
    exact ⟨(.outOfMemory, grown), between.refused, rfl, rfl, turned⟩
  · exact absurd ample_always shortage

/-- A set that is refused may leave the object rehashed. -/
theorem allows_setOwned_turned {object : JsonObject (JsonNode D)} (valid : object.Valid)
    (regular : object.Regular) {key : TenString} (keyValid : key.Valid)
    (absent : key.cstr.bytes ∉ object.keys) (full : (layoutOf object.keys).Full)
    (value : JsonNode D) (world : World) :
    Allows World.requests (tenJsonObjectSetOwned object key value) world (fun reply _ =>
      reply.1 = .outOfMemory ∧ reply.2.Valid ∧ reply.2.keys = object.keys ∧
        reply.2.LaidOut (layoutOf object.keys).turned) := by
  have found : tenMapFind object.entries key.pointer = none := by
    rw [← valid.find_isSome_iff_mem_keys, Bool.not_eq_true, Option.isSome_eq_false_iff,
      Option.isNone_iff_eq_none] at absent
    exact absent
  have mapFull := (regular.full_iff valid (length_layoutOf _)).mpr full
  have refused : Allows World.requests (tenJsonObjectSetOwned object key value) world
      (fun reply _ => reply.1 = .outOfMemory ∧ reply.2.keyOrder = object.keyOrder ∧
        object.entries.Turned reply.2.entries) := by
    unfold tenJsonObjectSetOwned
    apply Allows.bind
    apply (uniform_tenSetError true .ok).allows
    rw [returns_tenSetError]
    apply Allows.bind
    apply (uniform_tenMapGet object.entries key.pointer).allows (b := true)
    apply (tenMapGet_eq_find object.entries key.pointer).mono
    rintro slot between ⟨rfl, -⟩
    rw [found]
    apply Allows.bind
    apply (allows_tenMapSet_turned valid.entries mapFull found value between).mono
    rintro ⟨code, entries⟩ after ⟨rfl, turned⟩
    dsimp only
    rw [if_pos (by simp)]
    exact .pure ⟨rfl, rfl, turned⟩
  apply (refused.and_always fun env reply after run =>
    ((tenJsonObjectSetOwned_spec valid keyValid value).eq run).valid).mono
  rintro ⟨code, ⟨entries, keyOrder⟩⟩ after ⟨⟨rfl, rfl, turned⟩, valid'⟩
  exact ⟨rfl, valid', rfl, regular.turned turned _⟩

/-- What a call does when everything is granted, an adversary can let it do. -/
theorem allows_of_granted {α : Type} {program : Ten α} {world : World}
    {failed : α → Prop} {done : α → World → Prop}
    (uniform : Uniform World.requests true program)
    (returns : Returns program (fun _ => true) world fun reply after =>
      (failed reply ∧ ¬ Ample fun _ => true) ∨ done reply after) :
    Allows World.requests program world fun reply after => (failed reply ∧ False) ∨ done reply after := by
  apply uniform.allows
  apply returns.mono
  rintro reply after (⟨-, shortage⟩ | isDone)
  · exact absurd ample_always shortage
  · exact .inr isDone

/-- An allocator that refuses nothing but the growth of strings. -/
theorem serves_allows :
    Serves D (allowsLogic World.requests) False (fun _ kept => ShortString kept) where
  setError code world post holds :=
    (uniform_tenSetError true code).allows ((returns_tenSetError code post).mpr holds)
  alloc node world :=
    allows_of_granted (uniform_tenJsonAlloc node) ((serves_returns _).alloc node world)
  create node world := by
    apply allows_of_granted _ ((serves_returns _).create node world)
    apply (uniform_tenJsonAlloc node).bind
    rintro (_ | json)
    · exact .pure _
    · exact (uniform_tenSetError true _).bind fun _ => .pure _
  array world := allows_of_granted uniform_tenJsonCreateArray ((serves_returns _).array world)
  object world := allows_of_granted uniform_tenJsonCreateObject ((serves_returns _).object world)
  add list value world :=
    allows_of_granted ((uniform_tenListAdd list value).bind fun _ => .pure _)
      ((serves_returns _).add list value world)
  set {object} valid regular {key} keyValid value world :=
    allows_of_granted (uniform_tenJsonObjectSetOwned object key value)
      ((serves_returns (D := D) _).set valid regular keyValid value world)
  destroy json world :=
    ((silent_tenJsonDestroy (some json)).uniform true).allows
      ((serves_returns _).destroy json world)
  string chars rest world := by
    apply ((allows_tenJsonParseString chars rest world).and_always fun env reply after =>
      keeps_tenJsonParseString _ env world reply after).mono
    intro reply after read
    exact .inr read

end Adversary

end Dotten
