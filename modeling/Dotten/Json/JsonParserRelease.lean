/-
Module: Dotten.Json.JsonParserRelease
Layer: Json
Purpose: The texts of which the parser reads no freed string, whichever allocations
  are refused: those in which no object can come to have two keys of one hash when
  its map grows.  On any other text some refusals lead to such a read.
Imports: Dotten.Json.JsonParserSound, Dotten.Json.JsonAdversary
Main exports: grows_tenJsonParseValue, compels_of_attempts, tenJsonParse_unread_iff
-/
import Dotten.Json.JsonParserSound
import Dotten.Json.JsonAdversary

namespace Dotten

open Dotten.Library

section Growth

variable {D : Type} [CDouble D]

omit [CDouble D] in
theorem grows_tenJsonDestroy (json : JsonNode D) :
    Grows World.strayReads (tenJsonDestroy (some json)) :=
  fun _ _ _ _ run => ((tenJsonDestroy_spec json).eq run).2.le

omit [CDouble D] in
theorem grows_destroyAndFail (json : JsonNode D) :
    Grows World.strayReads (destroyAndFail json) :=
  (grows_tenJsonDestroy json).bind fun _ => (Keeps.pure _).grows

omit [CDouble D] in
theorem grows_tenJsonObjectSetOwned (object : JsonObject (JsonNode D)) (key : TenString)
    (value : JsonNode D) :
    Grows World.strayReads (tenJsonObjectSetOwned object key value) := by
  apply (keeps_tenSetError _).grows.bind
  intro _
  apply (keeps_tenMapGet _ _).grows.bind
  rintro (_ | found)
  · apply (keeps_tenMapSet _ _ _).grows.bind
    rintro ⟨rc, entries⟩
    apply Grows.ite
    · exact (Keeps.pure _).grows
    apply (keeps_tenListAdd _ _).grows.bind
    rintro ⟨rc, keyOrder⟩
    apply Grows.ite
    · exact (keeps_tenMapRemove _ _).grows.bind fun _ => (Keeps.pure _).grows
    · exact ((keeps_tenSetError _).bind fun _ => .pure _).grows
  · apply (keeps_tenMapSet _ _ _).grows.bind
    rintro ⟨rc, entries⟩
    apply Grows.ite
    · exact (Keeps.pure _).grows
    · exact (grows_tenJsonDestroy found).bind fun _ =>
        ((keeps_tenSetError _).bind fun _ => .pure _).grows

omit [CDouble D] in
/-- Behind an item the loop goes on, or ends, or gives up. -/
theorem grows_continued {closing : Byte} {after : Bytes} {json : JsonNode D}
    {more : Bytes → Ten (Option (JsonNode D × Bytes))}
    (growsMore : ∀ tail, Grows World.strayReads (more tail)) :
    Grows World.strayReads (match tenJsonSkipWs after with
      | [] => destroyAndFail json
      | c :: tail =>
          if c = ascii ',' then more tail
          else if c = closing then pure (some (json, tail))
          else destroyAndFail json) := by
  cases tenJsonSkipWs after with
  | nil => exact grows_destroyAndFail json
  | cons c tail =>
      exact Grows.ite (growsMore tail) (Grows.ite (Keeps.pure _).grows (grows_destroyAndFail json))

/-- What follows the reading of an element. -/
theorem grows_elementRead {steps : Nat}
    (growsMore : ∀ arr p, Grows World.strayReads (tenJsonParseElements (D := D) steps arr p))
    (arr element : JsonNode D) (p : Bytes) :
    Grows World.strayReads (do
      let (rc, arr) ← tenJsonArrayAdd arr (some element)
      if rc ≠ .ok then
        tenJsonDestroy (some element)
        destroyAndFail arr
      else
        match tenJsonSkipWs p with
        | [] => destroyAndFail arr
        | c :: p =>
            if c = ascii ',' then tenJsonParseElements steps arr p
            else if c = ascii ']' then return some (arr, p)
            else destroyAndFail arr) := by
  apply (keeps_tenJsonArrayAdd _ _).grows.bind
  rintro ⟨rc, array⟩
  apply Grows.ite
  · exact (grows_tenJsonDestroy element).bind fun _ => grows_destroyAndFail array
  · exact grows_continued (growsMore array)

/-- What follows the reading of a member's value. -/
theorem grows_memberRead {steps : Nat}
    (growsMore : ∀ obj p, Grows World.strayReads (tenJsonParseMembers (D := D) steps obj p))
    (object : JsonObject (JsonNode D)) (key : TenString) (value : JsonNode D) (p : Bytes) :
    Grows World.strayReads (do
      let (rc, object) ← tenJsonObjectSetOwned object key value
      let obj := .object object
      if rc ≠ .ok then
        tenJsonDestroy (some value)
        destroyAndFail obj
      else
        match tenJsonSkipWs p with
        | [] => destroyAndFail obj
        | c :: p =>
            if c = ascii ',' then tenJsonParseMembers steps obj p
            else if c = ascii '}' then return some (obj, p)
            else destroyAndFail obj) := by
  apply (grows_tenJsonObjectSetOwned object key value).bind
  rintro ⟨rc, object'⟩
  apply Grows.ite
  · exact (grows_tenJsonDestroy value).bind fun _ => grows_destroyAndFail (.object object')
  · exact grows_continued (growsMore (.object object'))

/-- With this many steps, no run of the three functions takes a read back. -/
structure GrowsAt (D : Type) [CDouble D] (steps : Nat) : Prop where
  value : ∀ p, Grows World.strayReads (tenJsonParseValue (D := D) steps p)
  elements : ∀ arr p, Grows World.strayReads (tenJsonParseElements (D := D) steps arr p)
  members : ∀ obj p, Grows World.strayReads (tenJsonParseMembers (D := D) steps obj p)

omit [CDouble D] in
/-- A literal name, whose constructor reads no freed string. -/
theorem grows_literal {create : Ten (Option (JsonNode D))} (keeps : Keeps World.strayReads create)
    (text p : Bytes) : Grows World.strayReads (tenJsonParseLiteral text create p) := by
  apply Grows.ite
  · apply keeps.grows.bind
    rintro (_ | json) <;> exact (Keeps.pure _).grows
  · exact (Keeps.pure none).grows

theorem grows_value {steps : Nat} (grows : GrowsAt D steps) (p : Bytes) :
    Grows World.strayReads (tenJsonParseValue (D := D) (steps + 1) p) := by
  have gaveUp : Grows World.strayReads (pure none : Ten (Option (JsonNode D × Bytes))) :=
    (Keeps.pure none).grows
  rw [tenJsonParseValue]
  cases tenJsonSkipWs p with
  | nil => exact gaveUp
  | cons c tail =>
      dsimp only
      apply Grows.ite (grows_literal (keeps_alloc_ok _) _ _)
      apply Grows.ite (grows_literal (keeps_alloc_ok _) _ _)
      apply Grows.ite (grows_literal (keeps_alloc_ok _) _ _)
      apply Grows.ite
      · apply (keeps_tenJsonParseString _).grows.bind
        rintro (_ | ⟨string, rest⟩)
        · exact gaveUp
        · apply (keeps_tenJsonAlloc _).grows.bind
          rintro (_ | json) <;> exact (Keeps.pure _).grows
      apply Grows.ite
      · apply keeps_tenJsonCreateArray.grows.bind
        rintro (_ | arr)
        · exact gaveUp
        · dsimp only
          cases tenJsonSkipWs tail with
          | nil => exact grows.elements arr _
          | cons d rest => exact Grows.ite (Keeps.pure _).grows (grows.elements arr _)
      apply Grows.ite
      · apply keeps_tenJsonCreateObject.grows.bind
        rintro (_ | obj)
        · exact gaveUp
        · dsimp only
          cases tenJsonSkipWs tail with
          | nil => exact grows.members obj _
          | cons d rest => exact Grows.ite (Keeps.pure _).grows (grows.members obj _)
      apply Grows.ite
      · apply Grows.ite gaveUp
        apply (keeps_alloc_ok _).grows.bind
        rintro (_ | json) <;> exact (Keeps.pure _).grows
      · exact gaveUp

theorem growsAt (steps : Nat) : GrowsAt D steps := by
  induction steps with
  | zero =>
      exact ⟨fun _ => keeps_stuck.grows, fun _ _ => keeps_stuck.grows, fun _ _ => keeps_stuck.grows⟩
  | succ steps inductionHypothesis =>
      refine ⟨grows_value inductionHypothesis, fun arr p => ?_, fun obj p => ?_⟩
      · apply (inductionHypothesis.value p).bind
        rintro (_ | ⟨element, rest⟩)
        · exact grows_destroyAndFail arr
        · exact grows_elementRead inductionHypothesis.elements arr element rest
      · apply (keeps_tenJsonParseString _).grows.bind
        rintro (_ | ⟨key, behind⟩)
        · exact grows_destroyAndFail obj
        dsimp only
        cases tenJsonSkipWs behind with
        | nil => exact grows_destroyAndFail obj
        | cons c q =>
            apply Grows.ite (grows_destroyAndFail obj)
            apply (inductionHypothesis.value q).bind
            rintro (_ | ⟨value, rest⟩)
            · exact grows_destroyAndFail obj
            cases obj with
            | object object =>
                exact grows_memberRead inductionHypothesis.members object key value rest
            | null => exact keeps_stuck.grows
            | boolean _ => exact keeps_stuck.grows
            | number _ => exact keeps_stuck.grows
            | string _ => exact keeps_stuck.grows
            | array _ => exact keeps_stuck.grows

end Growth

section Force

variable {D : Type} [CDouble D]

/-- From the place, some refusals make the parser read a freed string. -/
def CompelsAt (D : Type) [CDouble D] : Place → Prop
  | .value p => ∀ {steps : Nat} (world : World), 2 * p.length + 1 ≤ steps →
      Compels World.requests (tenJsonParseValue (D := D) steps p) world
        (fun _ after => world.strayReads < after.strayReads)
  | .element p => ∀ {steps : Nat} (world : World) (list : TenList (JsonNode D)),
      2 * p.length + 2 ≤ steps →
      Compels World.requests (tenJsonParseElements steps (.array list) p) world
        (fun _ after => world.strayReads < after.strayReads)
  | .member keys p => ∀ {steps : Nat} (world : World) {object : JsonObject (JsonNode D)},
      2 * p.length + 2 ≤ steps → object.Valid → object.Regular → object.keys = keys →
      Steady keys →
      Compels World.requests (tenJsonParseMembers steps (.object object) p) world
        (fun _ after => world.strayReads < after.strayReads)

theorem ReadsValue.length_le {p q : Bytes} (read : ReadsValue p q) : q.length ≤ p.length := by
  obtain ⟨before, text, tree, rfl, -⟩ := read
  simp only [List.length_append]
  omega

/-- A value of the dialect can be read. -/
theorem ReadsValue.allows {p q : Bytes} (read : ReadsValue p q) {steps : Nat}
    (enough : 2 * p.length + 1 ≤ steps) (world : World) :
    Allows World.requests (tenJsonParseValue (D := D) steps p) world (fun reply after =>
      (∃ json, reply = some (json, q)) ∧ world.strayReads ≤ after.strayReads) := by
  obtain ⟨before, text, tree, rfl, derives, stops⟩ := read
  have readText : ReadsAs D (allowsLogic World.requests) False (fun _ kept => ShortString kept)
      (fun _ => True) (.value tree) text :=
    readsAs_of_derives serves_allows readsDialect_accepted derives
  have skipped := (@readsDialect_accepted D _).skip_value derives before q
  have some : Allows World.requests (tenJsonParseValue (D := D) steps
      (before.bytes ++ (text ++ q))) world (fun reply _ => ∃ json, reply = some (json, q)) := by
    apply Allows.mono (readText q skipped stops enough)
    rintro reply after (⟨-, impossible | bad⟩ | ⟨-, json, -, rfl, -⟩)
    · exact impossible.elim
    · exact absurd (JsonTree.numbers_true tree) bad
    · exact ⟨json, rfl⟩
  exact some.and_always fun env reply after run => (growsAt steps).value _ env world reply after run

theorem ReadsName.length_lt {p key q : Bytes} (name : ReadsName p key q) :
    q.length + 3 ≤ p.length := by
  obtain ⟨text, string, behind, literal, -, -, colon⟩ := name
  have first := length_tenJsonSkipWs_le p
  have second := length_tenJsonSkipWs_le behind
  rw [literal] at first
  rw [colon] at second
  simp only [List.length_cons, List.length_append] at first second
  omega

/-- No element stands where the array is closed. -/
theorem Attempts.not_closed {p : Bytes} {keys : List Bytes} (attempts : Attempts (.element p) keys)
    {c : Byte} {rest : Bytes} (here : tenJsonSkipWs p = c :: rest) : c ≠ ascii ']' := by
  cases attempts with
  | element inside =>
      cases inside with
      | array starts _ =>
          rw [starts] at here
          cases here
          decide
      | object starts _ =>
          rw [starts] at here
          cases here
          decide
  | nextElement read _ _ =>
      obtain ⟨before, text, tree, rfl, derives, -⟩ := read
      obtain ⟨b, tail, rfl, -, notClosed, -⟩ := (@readsDialect_accepted Int _).value_head derives
      rw [(@readsDialect_accepted Int _).skip_value derives before] at here
      cases here
      exact notClosed

/-- No member stands where the object is closed. -/
theorem Attempts.not_closed_member {p : Bytes} {built keys : List Bytes}
    (attempts : Attempts (.member built p) keys) {c : Byte} {rest : Bytes}
    (here : tenJsonSkipWs p = c :: rest) : c ≠ ascii '}' := by
  have named : ∀ {key q : Bytes}, ReadsName p key q → c ≠ ascii '}' := by
    rintro key q ⟨text, string, behind, literal, -⟩
    rw [literal] at here
    cases here
    decide
  cases attempts with
  | memberValue name _ => exact named name
  | set name _ _ => exact named name
  | nextMember name _ _ _ _ => exact named name
  | repeated name _ _ _ _ => exact named name

omit [CDouble D] in
/-- Rehashing an object in step that has two keys of one hash, and giving it up. -/
theorem compels_turned {object : JsonObject (JsonNode D)} (valid : object.Valid)
    (turned : object.LaidOut (layoutOf object.keys).turned) (inStep : KeysInStep object.keys)
    (collide : ¬ (object.keys.map tenFnv1a).Nodup) (value : JsonNode D) (world : World) :
    Compels World.requests (do
        tenJsonDestroy (some value)
        destroyAndFail (.object object)) world
      (fun _ after => world.strayReads < after.strayReads) := by
  have stuckKey : ¬ (JsonNode.object object).Releasable := by
    intro releasable
    cases releasable with
    | object still _ =>
        rw [valid.inStep_iff turned] at still
        exact not_inStep_turned valid.nodup_keys inStep collide still
  refine ⟨[], ?_⟩
  intro env _ reply after run
  have returns : Returns (do
      tenJsonDestroy (some value)
      destroyAndFail (.object object)) env world
        (fun _ after => world.strayReads < after.strayReads) := by
    rw [returns_bind]
    apply (tenJsonDestroy_spec value).mono
    intro _ between first
    rw [destroyAndFail, returns_bind]
    apply (tenJsonDestroy_spec _).mono
    intro _ last second
    rw [returns_pure]
    have read := second.2.iff.not.mpr stuckKey
    have before := first.2.le
    have behind := second.2.le
    omega
  exact returns.eq run

/-- A name and a value have been read: what is left of the loop over an object. -/
theorem compels_member {p key q r : Bytes} (name : ReadsName p key q) (read : ReadsValue q r)
    {steps : Nat} (enough : 2 * p.length + 2 ≤ steps + 1) {object : JsonObject (JsonNode D)}
    {world : World} {post : Option (JsonNode D × Bytes) → World → Prop}
    (goesOn : ∀ (string : TenString) (value : JsonNode D) (between : World), string.Valid →
      string.cstr.bytes = key → world.strayReads ≤ between.strayReads →
      Compels World.requests (do
        let (rc, object) ← tenJsonObjectSetOwned object string value
        let obj := .object object
        if rc ≠ .ok then
          tenJsonDestroy (some value)
          destroyAndFail obj
        else
          match tenJsonSkipWs r with
          | [] => destroyAndFail obj
          | c :: p =>
              if c = ascii ',' then tenJsonParseMembers steps obj p
              else if c = ascii '}' then return some (obj, p)
              else destroyAndFail obj) between post) :
    Compels World.requests (tenJsonParseMembers (steps + 1) (.object object) p) world post := by
  have shorter := name.length_lt
  obtain ⟨text, last, behind, literal, kept, rfl, colon⟩ := name
  rw [tenJsonParseMembers, literal]
  apply Allows.compels_bind
  apply ((allows_keptChars kept behind world).and_always fun env reply after =>
    keeps_tenJsonParseString _ env world reply after).mono
  rintro reply between ⟨⟨string, rfl, stringValid, unplaced⟩, unread⟩
  dsimp only
  rw [colon]
  dsimp only
  rw [if_neg (by simp)]
  apply Allows.compels_bind
  apply (read.allows (by omega) between).mono
  rintro reply valueWorld ⟨⟨value, rfl⟩, later⟩
  apply goesOn string value valueWorld stringValid
  · rw [← unplaced]
    rfl
  · exact unread ▸ later

/-- A set that makes the keys unsteady can be refused in such a way that a freed string
is read. -/
theorem compels_unsteady {steps : Nat} {object : JsonObject (JsonNode D)} (valid : object.Valid)
    (regular : object.Regular) (steady : Steady object.keys) {string : TenString}
    (stringValid : string.Valid) (absent : string.cstr.bytes ∉ object.keys)
    (unsteady : ¬ Steady (object.keys ++ [string.cstr.bytes])) (value : JsonNode D)
    (rest : Bytes) (world : World) :
    Compels World.requests (do
        let (rc, object) ← tenJsonObjectSetOwned object string value
        let obj := .object object
        if rc ≠ .ok then
          tenJsonDestroy (some value)
          destroyAndFail obj
        else
          match tenJsonSkipWs rest with
          | [] => destroyAndFail obj
          | c :: p =>
              if c = ascii ',' then tenJsonParseMembers steps obj p
              else if c = ascii '}' then return some (obj, p)
              else destroyAndFail obj) world
      (fun _ after => world.strayReads < after.strayReads) := by
  obtain ⟨full, collide⟩ := steady.collides unsteady
  apply Allows.compels_bind
  apply ((allows_setOwned_turned valid regular stringValid absent full value world).and_always
    fun env reply after => grows_tenJsonObjectSetOwned _ _ _ env world reply after).mono
  rintro ⟨code, object'⟩ between ⟨⟨rfl, valid', keys, turned⟩, later⟩
  dsimp only
  rw [if_pos (by simp)]
  rw [← keys] at turned collide steady
  apply (compels_turned valid' turned steady.inStep collide value between).mono
  intro reply after more
  exact later.trans_lt more

/-- One more member that is set, as long as the keys stay steady. -/
theorem compels_later {steps : Nat} {object : JsonObject (JsonNode D)} (valid : object.Valid)
    (regular : object.Regular) {string : TenString} (stringValid : string.Valid)
    (value : JsonNode D) {rest tail : Bytes} (comma : tenJsonSkipWs rest = ascii ',' :: tail)
    (world : World) (later : ∀ (object' : JsonObject (JsonNode D)) (between : World),
      SetLayout object string.cstr.bytes .ok object' → object'.Valid →
      Compels World.requests (tenJsonParseMembers steps (.object object') tail) between
        (fun _ after => between.strayReads < after.strayReads)) :
    Compels World.requests (do
        let (rc, object) ← tenJsonObjectSetOwned object string value
        let obj := .object object
        if rc ≠ .ok then
          tenJsonDestroy (some value)
          destroyAndFail obj
        else
          match tenJsonSkipWs rest with
          | [] => destroyAndFail obj
          | c :: p =>
              if c = ascii ',' then tenJsonParseMembers steps obj p
              else if c = ascii '}' then return some (obj, p)
              else destroyAndFail obj) world
      (fun _ after => world.strayReads < after.strayReads) := by
  apply Allows.compels_bind
  apply (Allows.and_always ((serves_allows (D := D)).set valid regular stringValid value world)
    fun env reply after run => (tenJsonObjectSetOwned_layout valid regular string value).eq run).mono
  rintro ⟨code, object'⟩ between ⟨⟨-, impossible⟩ | ⟨⟨object'', done, valid', -, -⟩, reads⟩, laidOut⟩
  · exact impossible.elim
  cases done
  dsimp only
  rw [if_neg (by simp), comma]
  dsimp only
  rw [if_pos rfl]
  apply (later object' between laidOut valid').mono
  intro reply after more
  exact reads.le.trans_lt more

omit [CDouble D] in
/-- Behind an opening bracket stands no closing one, when there is more to come to. -/
theorem compels_opened {closing : Byte} {tail : Bytes} {json : JsonNode D} {world : World}
    {items : Bytes → Ten (Option (JsonNode D × Bytes))}
    {post : Option (JsonNode D × Bytes) → World → Prop}
    (more : ∀ c rest, tenJsonSkipWs tail = c :: rest → c ≠ closing)
    (loop : Compels World.requests (items (tenJsonSkipWs tail)) world post) :
    Compels World.requests (match tenJsonSkipWs tail with
      | c :: rest => if c = closing then return some (json, rest) else items (tenJsonSkipWs tail)
      | [] => items (tenJsonSkipWs tail)) world post := by
  cases next : tenJsonSkipWs tail with
  | nil =>
      rw [next] at loop
      exact loop
  | cons c rest =>
      rw [next] at loop
      dsimp only
      rw [if_neg (more c rest next)]
      exact loop

theorem compelsAt_array {p tail : Bytes} {keys : List Bytes}
    (starts : tenJsonSkipWs p = ascii '[' :: tail)
    (inside : Attempts (.element (tenJsonSkipWs tail)) keys)
    (forced : CompelsAt D (.element (tenJsonSkipWs tail))) : CompelsAt D (.value p) := by
  intro steps world enough
  have shorter := length_tenJsonSkipWs_le p
  have inner := length_tenJsonSkipWs_le tail
  rw [starts, List.length_cons] at shorter
  cases steps with
  | zero => omega
  | succ steps =>
      rw [tenJsonParseValue, starts]
      dsimp only
      rw [if_neg (by decide), if_neg (by decide), if_neg (by decide), if_neg (by decide),
        if_pos rfl]
      apply Allows.compels_bind
      apply Allows.mono ((serves_allows (D := D)).array world)
      rintro reply between (⟨-, impossible⟩ | ⟨⟨json, rfl, list, rfl, -⟩, unread⟩)
      · exact impossible.elim
      have loop : Compels World.requests
          (tenJsonParseElements steps (.array list) (tenJsonSkipWs tail)) between
          (fun _ after => between.strayReads < after.strayReads) := forced between list (by omega)
      rw [unread] at loop
      refine compels_opened (fun c rest next => ?_) loop
      exact inside.not_closed ((tenJsonSkipWs_idem tail).trans next)

theorem compelsAt_object {p tail : Bytes} {keys : List Bytes}
    (starts : tenJsonSkipWs p = ascii '{' :: tail)
    (inside : Attempts (.member [] (tenJsonSkipWs tail)) keys)
    (forced : CompelsAt D (.member [] (tenJsonSkipWs tail))) : CompelsAt D (.value p) := by
  intro steps world enough
  have shorter := length_tenJsonSkipWs_le p
  have inner := length_tenJsonSkipWs_le tail
  rw [starts, List.length_cons] at shorter
  cases steps with
  | zero => omega
  | succ steps =>
      rw [tenJsonParseValue, starts]
      dsimp only
      rw [if_neg (by decide), if_neg (by decide), if_neg (by decide), if_neg (by decide),
        if_neg (by decide), if_pos rfl]
      apply Allows.compels_bind
      apply Allows.mono ((serves_allows (D := D)).object world)
      rintro reply between
        (⟨-, impossible⟩ | ⟨⟨json, rfl, object, rfl, valid, regular, empty⟩, unread⟩)
      · exact impossible.elim
      have keys : object.keys = [] := by
        rw [← valid.map_fst_treeMembers, empty]
        rfl
      have loop : Compels World.requests
          (tenJsonParseMembers steps (.object object) (tenJsonSkipWs tail)) between
          (fun _ after => between.strayReads < after.strayReads) :=
        forced between (by omega) valid regular keys steady_nil
      rw [unread] at loop
      refine compels_opened (fun c rest next => ?_) loop
      exact inside.not_closed_member ((tenJsonSkipWs_idem tail).trans next)

theorem compelsAt_element {p : Bytes} (forced : CompelsAt D (.value p)) :
    CompelsAt D (.element p) := by
  intro steps world list enough
  cases steps with
  | zero => omega
  | succ steps =>
      rw [tenJsonParseElements]
      apply Compels.bind_grows (forced world (by omega))
      rintro (_ | ⟨element, rest⟩)
      · exact grows_destroyAndFail _
      · exact grows_elementRead (growsAt steps).elements _ element rest

theorem compelsAt_nextElement {p q r : Bytes} (read : ReadsValue p q)
    (comma : tenJsonSkipWs q = ascii ',' :: r) (forced : CompelsAt D (.element r)) :
    CompelsAt D (.element p) := by
  intro steps world list enough
  have shorter := read.length_le
  have inner := length_tenJsonSkipWs_le q
  rw [comma, List.length_cons] at inner
  cases steps with
  | zero => omega
  | succ steps =>
      rw [tenJsonParseElements]
      apply Allows.compels_bind
      apply (read.allows (by omega) world).mono
      rintro reply between ⟨⟨element, rfl⟩, before⟩
      apply Allows.compels_bind
      apply Allows.mono ((serves_allows (D := D)).add list element between)
      rintro ⟨code, json⟩ last (⟨-, impossible⟩ | ⟨⟨list', added, -⟩, unread⟩)
      · exact impossible.elim
      cases added
      dsimp only
      rw [if_neg (by simp), comma]
      dsimp only
      rw [if_pos rfl]
      apply (forced last list' (by omega)).mono
      intro reply after more
      rw [unread] at more
      exact before.trans_lt more

theorem compelsAt_memberValue {p key q : Bytes} {built : List Bytes} (name : ReadsName p key q)
    (forced : CompelsAt D (.value q)) : CompelsAt D (.member built p) := by
  intro steps world object enough valid regular same steady
  have shorter := name.length_lt
  obtain ⟨text, last, behind, literal, kept, -, colon⟩ := name
  cases steps with
  | zero => omega
  | succ steps =>
      rw [tenJsonParseMembers, literal]
      apply Allows.compels_bind
      apply ((allows_keptChars kept behind world).and_always fun env reply after =>
        keeps_tenJsonParseString _ env world reply after).mono
      rintro reply between ⟨⟨string, rfl, stringValid, -⟩, unread⟩
      dsimp only
      rw [colon]
      dsimp only
      rw [if_neg (by simp), ← unread]
      apply Compels.bind_grows (forced between (by omega))
      rintro (_ | ⟨value, rest⟩)
      · exact grows_destroyAndFail _
      · exact grows_memberRead (growsAt steps).members object string value rest

/-- A new key that is set: the refusals come now, if the keys are not steady with it, or
later. -/
theorem compelsAt_set {p key q r : Bytes} {built : List Bytes} (name : ReadsName p key q)
    (read : ReadsValue q r) (absent : key ∉ built)
    (later : Steady (built ++ [key]) →
      ∃ s, tenJsonSkipWs r = ascii ',' :: s ∧ CompelsAt D (.member (built ++ [key]) s)) :
    CompelsAt D (.member built p) := by
  intro steps world object enough valid regular same steady
  subst same
  have shorter := name.length_lt
  have within := read.length_le
  cases steps with
  | zero => omega
  | succ steps =>
      apply compels_member name read enough
      rintro string value between stringValid rfl before
      suffices forced : Compels World.requests _ between
          (fun _ after => between.strayReads < after.strayReads) from
        forced.mono fun _ _ more => before.trans_lt more
      by_cases still : Steady (object.keys ++ [string.cstr.bytes])
      · obtain ⟨s, comma, forced⟩ := later still
        have inner := length_tenJsonSkipWs_le r
        rw [comma, List.length_cons] at inner
        apply compels_later valid regular stringValid value comma between
        intro object' last laidOut valid'
        cases laidOut with
        | replaced present _ _ => exact absurd present absent
        | added _ keys regular' => exact forced last (by omega) valid' regular' keys still
      · exact compels_unsteady valid regular steady stringValid absent still value _ between

theorem compelsAt_repeated {p key q r s : Bytes} {built : List Bytes} (name : ReadsName p key q)
    (read : ReadsValue q r) (present : key ∈ built) (comma : tenJsonSkipWs r = ascii ',' :: s)
    (forced : CompelsAt D (.member built s)) : CompelsAt D (.member built p) := by
  intro steps world object enough valid regular same steady
  subst same
  have shorter := name.length_lt
  have inner := length_tenJsonSkipWs_le r
  have within := read.length_le
  rw [comma, List.length_cons] at inner
  cases steps with
  | zero => omega
  | succ steps =>
      apply compels_member name read enough
      rintro string value between stringValid rfl before
      suffices forced : Compels World.requests _ between
          (fun _ after => between.strayReads < after.strayReads) from
        forced.mono fun _ _ more => before.trans_lt more
      apply compels_later valid regular stringValid value comma between
      intro object' last laidOut valid'
      cases laidOut with
      | replaced _ keys regular' => exact forced last (by omega) valid' regular' keys steady
      | added absent _ _ => exact absurd present absent

/-- An attempt that is not steady leads to the read of a freed string: one case for each
way on from a place. -/
theorem compels_of_attempts {place : Place} {keys : List Bytes} (attempts : Attempts place keys)
    (unsteady : ¬ Steady keys) : CompelsAt D place := by
  induction attempts with
  | array starts inside inductionHypothesis =>
      exact compelsAt_array starts inside (inductionHypothesis unsteady)
  | object starts inside inductionHypothesis =>
      exact compelsAt_object starts inside (inductionHypothesis unsteady)
  | element inside inductionHypothesis => exact compelsAt_element (inductionHypothesis unsteady)
  | nextElement read comma later inductionHypothesis =>
      exact compelsAt_nextElement read comma (inductionHypothesis unsteady)
  | memberValue name inside inductionHypothesis =>
      exact compelsAt_memberValue name (inductionHypothesis unsteady)
  | set name read absent =>
      exact compelsAt_set name read absent fun still => absurd still unsteady
  | nextMember name read absent comma later inductionHypothesis =>
      exact compelsAt_set name read absent fun _ => ⟨_, comma, inductionHypothesis unsteady⟩
  | repeated name read present comma later inductionHypothesis =>
      exact compelsAt_repeated name read present comma (inductionHypothesis unsteady)

/-- `ten_json_parse` reads no freed string, whichever requests are refused, exactly on
the texts of which no object can come to be out of step. -/
theorem tenJsonParse_unread_iff (text : CString) :
    (∀ (grants : Schedule) (world : World), Returns (tenJsonParse (D := D) (some text)) grants world
      (fun _ after => after.strayReads = world.strayReads)) ↔ Calm (.value text.bytes) := by
  constructor
  · intro unread keys attempts
    by_contra unsteady
    have whole : Compels World.requests (tenJsonParse (D := D) (some text)) default
        (fun _ after => World.strayReads default < after.strayReads) := by
      rw [tenJsonParse]
      apply Compels.bind_grows
        ((compels_of_attempts (D := D) attempts unsteady) default (Nat.le_refl _))
      rintro (_ | ⟨json, rest⟩)
      · exact ((keeps_tenSetError _).bind fun _ => .pure _).grows
      · apply Grows.ite
        · exact (grows_tenJsonDestroy json).bind fun _ =>
            ((keeps_tenSetError _).bind fun _ => .pure _).grows
        · exact ((keeps_tenSetError _).bind fun _ => .pure _).grows
    obtain ⟨grants, reply, after, run, more⟩ := whole.exists_env fun grants =>
      (unread grants default).mono fun _ _ _ => trivial
    have same := (unread grants default).eq run
    omega
  · intro calm grants world
    exact (tenJsonParse_sound text world).mono fun _ _ sound => sound.1 calm

end Force

end Dotten
