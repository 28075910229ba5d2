/-
Module: Dotten.Json.JsonParserSound
Layer: Json
Purpose: The parser returns on every text, reports every refusal as a parse
  error, and accepts only the texts of its dialect, whichever allocations are
  refused.  From a place at which no object can come to be out of step it reads no
  freed string.
Imports: Dotten.Json.JsonParserComplete, Dotten.Json.JsonAttempts
Main exports: Outcome, SoundAt, soundAt, tenJsonParse_sound
-/
import Dotten.Json.JsonParserComplete
import Dotten.Json.JsonAttempts

namespace Dotten

open Dotten.Library

section Spaces

/-- A skip passes over white space only. -/
theorem exists_skipped (p : Bytes) : ∃ space : Whitespace, space.bytes ++ tenJsonSkipWs p = p :=
  ⟨⟨p.takeWhile isJsonSpace, fun _ member => List.mem_takeWhile_imp member⟩,
    List.takeWhile_append_dropWhile⟩

theorem noNul_tenJsonSkipWs {p : Bytes} (noNul : (0 : Byte) ∉ p) : (0 : Byte) ∉ tenJsonSkipWs p :=
  fun zero => noNul ((List.dropWhile_sublist _).subset zero)

/-- Two runs of white space in a row. -/
def Whitespace.append (left right : Whitespace) : Whitespace where
  bytes := left.bytes ++ right.bytes
  spaces := by
    intro b member
    rcases List.mem_append.mp member with inLeft | inRight
    · exact left.spaces b inLeft
    · exact right.spaces b inRight

/-- White space before the elements of an array belongs to the first of
them. -/
theorem Derives.pad_elements {g : Dialect} {trees : List (JsonTree Bytes)} {text : Bytes}
    (space : Whitespace) (derives : Derives g (.elements trees) text) :
    Derives g (.elements trees) (space.bytes ++ text) := by
  cases derives with
  | element before after value =>
      rw [← List.append_assoc]
      exact .element (space.append before) after value
  | elements before after value rest =>
      rw [← List.append_assoc]
      exact .elements (space.append before) after value rest

theorem Derives.pad_members {g : Dialect} {members : List (Bytes × JsonTree Bytes)} {text : Bytes}
    (space : Whitespace) (derives : Derives g (.members members) text) :
    Derives g (.members members) (space.bytes ++ text) := by
  cases derives with
  | member before beforeColon beforeValue after chars value =>
      rw [← List.append_assoc]
      exact .member (space.append before) beforeColon beforeValue after chars value
  | members before beforeColon beforeValue after chars value rest =>
      rw [← List.append_assoc]
      exact .members (space.append before) beforeColon beforeValue after chars value rest

end Spaces

section Soundness

variable {D : Type} [CDouble D] {grants : Schedule} {calm : Prop} {world between after : World}
  {accepts : Bytes → Prop} {json : JsonNode D} {rest : Bytes}

/-- What is accepted and where the cursor stands then.  In a calm case no freed string has
been read, and the value can be destroyed without that. -/
def Outcome (calm : Prop) (world : World) (accepts : Bytes → Prop)
    (reply : Option (JsonNode D × Bytes)) (after : World) : Prop :=
  (calm → after.strayReads = world.strayReads) ∧
    ∀ json rest, reply = some (json, rest) → accepts rest ∧ (calm → json.Releasable)

omit [CDouble D] in
theorem outcome_none (unread : calm → after.strayReads = world.strayReads) :
    Outcome (D := D) calm world accepts none after :=
  ⟨unread, fun _ _ same => by cases same⟩

omit [CDouble D] in
theorem outcome_some (unread : calm → after.strayReads = world.strayReads)
    (accepted : accepts rest) (releasable : calm → json.Releasable) :
    Outcome calm world accepts (some (json, rest)) after := by
  refine ⟨unread, ?_⟩
  intro json rest same
  cases same
  exact ⟨accepted, releasable⟩

omit [CDouble D] in
/-- What comes before reads no freed string. -/
theorem Outcome.behind {more : Bytes → Prop} {reply : Option (JsonNode D × Bytes)}
    (outcome : Outcome calm between accepts reply after)
    (unread : calm → between.strayReads = world.strayReads)
    (weaken : ∀ rest, accepts rest → more rest) : Outcome calm world more reply after := by
  refine ⟨fun isCalm => (outcome.1 isCalm).trans (unread isCalm), ?_⟩
  intro json rest same
  exact ⟨weaken rest (outcome.2 json rest same).1, (outcome.2 json rest same).2⟩

omit [CDouble D] in
/-- A parser that destroys what it has and gives up. -/
theorem returns_destroyAndFail (unread : calm → between.strayReads = world.strayReads)
    (releasable : calm → json.Releasable) :
    Returns (destroyAndFail json) grants between (Outcome calm world accepts) := by
  rw [destroyAndFail, returns_bind]
  apply (tenJsonDestroy_spec json).mono
  intro _ last released
  rw [returns_pure]
  exact outcome_none fun isCalm =>
    (released.2.iff.mpr (releasable isCalm)).trans (unread isCalm)

omit [CDouble D] in
/-- A parser that destroys the value it has just read as well. -/
theorem returns_destroyBothAndFail {value : JsonNode D}
    (unread : calm → between.strayReads = world.strayReads)
    (valueReleasable : calm → value.Releasable) (releasable : calm → json.Releasable) :
    Returns (do
        tenJsonDestroy (some value)
        destroyAndFail json) grants between (Outcome calm world accepts) := by
  rw [returns_bind]
  apply (tenJsonDestroy_spec value).mono
  intro _ last released
  exact returns_destroyAndFail
    (fun isCalm => (released.2.iff.mpr (valueReleasable isCalm)).trans (unread isCalm)) releasable

/-- With this many steps, each of the three functions returns on every text
that is short enough, and what it accepts is in the dialect. -/
structure SoundAt (D : Type) [CDouble D] (grants : Schedule) (calm : Prop) (steps : Nat) :
    Prop where
  value : ∀ {world : World} {p : Bytes}, 2 * p.length + 1 ≤ steps → (0 : Byte) ∉ p →
    (calm → Calm (.value p)) →
    Returns (tenJsonParseValue (D := D) steps p) grants world (Outcome calm world (ReadsValue p))
  elements : ∀ {world : World} {p : Bytes} {list : TenList (JsonNode D)},
    2 * p.length + 2 ≤ steps → (0 : Byte) ∉ p → (calm → Calm (.element p)) →
    (calm → ∀ item ∈ list.items, item.Releasable) →
    Returns (tenJsonParseElements steps (.array list) p) grants world (Outcome calm world
      fun rest => ∃ (text : Bytes) (trees : List (JsonTree Bytes)),
        p = text ++ ascii ']' :: rest ∧ Derives Dialect.accepted (.elements trees) text)
  members : ∀ {world : World} {p : Bytes} {object : JsonObject (JsonNode D)},
    2 * p.length + 2 ≤ steps → (0 : Byte) ∉ p → object.Valid → object.Regular →
    (calm → Calm (.member object.keys p)) →
    (calm → Steady object.keys ∧ ∀ member ∈ object.members, member.2.Releasable) →
    Returns (tenJsonParseMembers steps (.object object) p) grants world (Outcome calm world
      fun rest => ∃ (text : Bytes) (members : List (Bytes × JsonTree Bytes)),
        p = text ++ ascii '}' :: rest ∧ Derives Dialect.accepted (.members members) text)

omit [CDouble D] in
/-- A literal name that is accepted stands at the cursor. -/
theorem tenJsonParseLiteral_sound {literal p : Bytes} {node : JsonNode D}
    (releasable : node.Releasable) :
    Returns (tenJsonParseLiteral literal (do
        let some json ← tenJsonAlloc node
          | return none
        tenSetError .ok
        return some json) p) grants world
      (Outcome calm world fun rest => p = literal ++ rest) := by
  rw [tenJsonParseLiteral]
  apply returns_ite
  · intro matched
    rw [returns_bind]
    apply ((keeps_alloc_ok node).returns (creates_of_alloc node)).mono
    rintro reply after ⟨⟨rfl, -⟩ | ⟨json, rfl, rfl⟩, unread⟩
    · simp only [returns_pure]
      exact outcome_none fun _ => unread
    · simp only [returns_pure]
      have whole := List.take_append_drop literal.length p
      rw [matched.2] at whole
      exact outcome_some (fun _ => unread) whole.symm fun _ => releasable
  · intro _
    rw [returns_pure]
    exact outcome_none fun _ => rfl

/-- A number that is accepted is a token of the dialect. -/
theorem tenJsonParseNumber_sound {c : Byte} {tail : Bytes}
    (starts : c = ascii '-' ∨ isDigit c = true) :
    Returns (tenJsonParseNumber (D := D) (c :: tail)) grants world (Outcome calm world
      fun rest => ∃ token, c :: tail = token ++ rest ∧ Dialect.accepted.number token ∧
        strtodLen (token ++ rest) = token.length) := by
  rw [tenJsonParseNumber]
  apply returns_ite
  · intro _
    rw [returns_pure]
    exact outcome_none fun _ => rfl
  · intro converted
    rw [returns_bind]
    apply ((keeps_alloc_ok _).returns (tenJsonCreateNumber_spec _)).mono
    rintro reply after ⟨⟨rfl, -⟩ | ⟨json, rfl, rfl⟩, unread⟩
    · simp only [returns_pure]
      exact outcome_none fun _ => unread
    · simp only [returns_pure]
      refine outcome_some (fun _ => unread) ?_ fun _ => .number _
      have length : strtodLen (c :: tail) ≤ (c :: tail).length := Nat.findGreatest_le _
      refine ⟨(c :: tail).take (strtodLen (c :: tail)), (List.take_append_drop _ _).symm,
        ⟨isSubjectSequence_take_strtodLen converted, ?_⟩, ?_⟩
      · cases length : strtodLen (c :: tail) with
        | zero => exact absurd length converted
        | succ n => exact ⟨c, tail.take n, rfl, starts⟩
      · rw [List.take_append_drop, List.length_take, Nat.min_eq_left length]

omit [CDouble D] in
/-- Behind an item stands a comma, and the loop goes on with less text, or the end
of the list. -/
theorem returns_continued {closing : Byte} {after : Bytes}
    {more : Bytes → Ten (Option (JsonNode D × Bytes))} (noNul : (0 : Byte) ∉ after)
    (unread : calm → between.strayReads = world.strayReads) (releasable : calm → json.Releasable)
    (onComma : ∀ (space : Whitespace) (tail : Bytes),
      space.bytes ++ ascii ',' :: tail = after → tenJsonSkipWs after = ascii ',' :: tail →
        (0 : Byte) ∉ tail → tail.length < after.length →
        Returns (more tail) grants between (Outcome calm world accepts))
    (onClose : ∀ (space : Whitespace) (tail : Bytes),
      space.bytes ++ closing :: tail = after → accepts tail) :
    Returns (match tenJsonSkipWs after with
      | [] => destroyAndFail json
      | c :: tail =>
          if c = ascii ',' then more tail
          else if c = closing then pure (some (json, tail))
          else destroyAndFail json) grants between (Outcome calm world accepts) := by
  obtain ⟨space, split⟩ := exists_skipped after
  cases next : tenJsonSkipWs after with
  | nil => exact returns_destroyAndFail unread releasable
  | cons c tail =>
      rw [next] at split
      dsimp only
      apply returns_ite
      · rintro rfl
        have tailNoNul : (0 : Byte) ∉ tail := by
          intro zero
          apply noNul
          rw [← split]
          simp [zero]
        have shorter : tail.length < after.length := by
          rw [← split]
          simp only [List.length_append, List.length_cons]
          omega
        exact onComma space tail split next tailNoNul shorter
      · intro _
        apply returns_ite
        · rintro rfl
          rw [returns_pure]
          exact outcome_some unread (onClose space tail split) releasable
        · intro _
          exact returns_destroyAndFail unread releasable

/-- The loop over the elements, from the soundness of what it calls. -/
theorem soundAt_elements {steps : Nat} (sound : SoundAt D grants calm steps) {p : Bytes}
    {list : TenList (JsonNode D)} (enough : 2 * p.length + 2 ≤ steps + 1) (noNul : (0 : Byte) ∉ p)
    (isCalm : calm → Calm (.element p)) (items : calm → ∀ item ∈ list.items, item.Releasable) :
    Returns (tenJsonParseElements (steps + 1) (.array list) p) grants world (Outcome calm world
      fun rest => ∃ (text : Bytes) (trees : List (JsonTree Bytes)),
        p = text ++ ascii ']' :: rest ∧ Derives Dialect.accepted (.elements trees) text) := by
  have arrayReleasable : ∀ {list : TenList (JsonNode D)},
      (calm → ∀ item ∈ list.items, item.Releasable) → calm → (JsonNode.array list).Releasable :=
    fun items holds => .array (items holds)
  rw [tenJsonParseElements, returns_bind]
  apply (sound.value (by omega) noNul fun holds keys inside =>
    isCalm holds keys (.element inside)).mono
  rintro reply between ⟨unread, read⟩
  rcases reply with _ | ⟨json, after⟩
  · exact returns_destroyAndFail unread (arrayReleasable items)
  obtain ⟨value, releasable⟩ := read json after rfl
  have located := value
  obtain ⟨before, text, tree, rfl, derives, -⟩ := located
  simp only [returns_bind]
  apply ((keeps_tenJsonArrayAdd _ _).returns (tenJsonArrayAdd_spec list json)).mono
  rintro ⟨rc, json'⟩ last ⟨added, same⟩
  have stillUnread : calm → last.strayReads = world.strayReads := fun holds =>
    same.trans (unread holds)
  rcases added with ⟨refused, -⟩ | ⟨list', added, items'⟩
  · cases refused
    simp only [ne_eq, reduceCtorEq, not_false_eq_true, if_true]
    exact returns_destroyBothAndFail stillUnread releasable (arrayReleasable items)
  cases added
  simp only [ne_eq, not_true_eq_false, if_false]
  simp only [List.mem_append, not_or] at noNul
  simp only [List.length_append] at enough
  have releasable' : calm → ∀ item ∈ list'.items, item.Releasable := by
    intro holds item member
    rw [items'] at member
    rcases List.mem_append.mp member with old | new
    · exact items holds item old
    · rw [List.mem_singleton.mp new]
      exact releasable holds
  apply returns_continued noNul.2.2 stillUnread (arrayReleasable releasable')
  · intro space tail split comma tailNoNul shorter
    apply (sound.elements (by omega) tailNoNul (fun holds keys later =>
      isCalm holds keys (.nextElement value comma later)) releasable').mono
    intro reply final post
    apply post.behind stillUnread
    rintro rest ⟨texts, trees, rfl, others⟩
    refine ⟨_, tree :: trees, ?_, .elements before space derives others⟩
    rw [← split]
    simp only [List.append_assoc, List.cons_append]
  · intro space tail split
    refine ⟨_, [tree], ?_, .element before space derives⟩
    rw [← split]
    simp only [List.append_assoc]

/-- The loop over the members, from the soundness of what it calls. -/
theorem soundAt_members {steps : Nat} (sound : SoundAt D grants calm steps) {p : Bytes}
    {object : JsonObject (JsonNode D)} (enough : 2 * p.length + 2 ≤ steps + 1)
    (noNul : (0 : Byte) ∉ p) (valid : object.Valid) (regular : object.Regular)
    (isCalm : calm → Calm (.member object.keys p))
    (holds : calm → Steady object.keys ∧ ∀ member ∈ object.members, member.2.Releasable) :
    Returns (tenJsonParseMembers (steps + 1) (.object object) p) grants world (Outcome calm world
      fun rest => ∃ (text : Bytes) (members : List (Bytes × JsonTree Bytes)),
        p = text ++ ascii '}' :: rest ∧ Derives Dialect.accepted (.members members) text) := by
  have objectReleasable : calm → (JsonNode.object object).Releasable := fun here =>
    JsonObject.releasable ((valid.inStep_iff_of_regular regular).mpr (holds here).1.inStep)
      (holds here).2
  rw [tenJsonParseMembers, returns_bind]
  apply ((keeps_tenJsonParseString _).returns
    (tenJsonParseString_sound (noNul_tenJsonSkipWs noNul))).mono
  rintro reply between ⟨read, unread⟩
  rcases reply with _ | ⟨string, afterKey⟩
  · exact returns_destroyAndFail (fun _ => unread) objectReleasable
  obtain ⟨stringValid, key, literal, kept⟩ := read string afterKey rfl
  obtain ⟨content, chars⟩ := kept.chars
  obtain ⟨before, split⟩ := exists_skipped p
  rw [literal] at split
  obtain ⟨beforeColon, colonSplit⟩ := exists_skipped afterKey
  simp only
  cases colon : tenJsonSkipWs afterKey with
  | nil =>
      exact returns_destroyAndFail (fun _ => unread) objectReleasable
  | cons c afterColon =>
      rw [colon] at colonSplit
      simp only
      apply returns_ite
      · intro _
        exact returns_destroyAndFail (fun _ => unread) objectReleasable
      intro isColon
      rw [not_not] at isColon
      subst isColon
      have name : ReadsName p string.cstr.bytes afterColon :=
        ⟨key, string.unplaced, afterKey, literal, kept, rfl, colon⟩
      rw [← colonSplit] at split
      have valueNoNul : (0 : Byte) ∉ afterColon := by
        intro zero
        apply noNul
        rw [← split]
        simp [zero]
      have valueShorter : 2 * afterColon.length + 3 ≤ steps := by
        rw [← split] at enough
        simp only [List.length_append, List.length_cons] at enough
        omega
      rw [returns_bind]
      apply (sound.value (by omega) valueNoNul fun here keys inside =>
        isCalm here keys (.memberValue name inside)).mono
      rintro reply valueWorld ⟨same, read⟩
      have valueUnread : calm → valueWorld.strayReads = world.strayReads := fun here =>
        (same here).trans unread
      rcases reply with _ | ⟨json, after⟩
      · exact returns_destroyAndFail valueUnread objectReleasable
      obtain ⟨value, releasable⟩ := read json after rfl
      have located := value
      obtain ⟨beforeValue, text, tree, rfl, derives, -⟩ := located
      simp only [returns_bind]
      apply ((tenJsonObjectSetOwned_spec valid stringValid json).and
        (tenJsonObjectSetOwned_layout valid regular string json)).mono
      rintro ⟨rc, object'⟩ last ⟨set, laidOut⟩
      have settled := fun here => setOwned_calm valid (holds here).1
        (fun absent => isCalm here _ (.set name value absent)) (holds here).2 (releasable here)
        set laidOut
      have setUnread : calm → last.strayReads = world.strayReads := fun here =>
        (settled here).1.trans (valueUnread here)
      have outcome := set.outcome
      cases outcome with
      | refused _ _ =>
          simp only [ne_eq, reduceCtorEq, not_false_eq_true, if_true]
          exact returns_destroyBothAndFail setUnread releasable fun here => (settled here).2.2.2
      | done _ =>
          simp only [ne_eq, not_true_eq_false, if_false]
          simp only [List.mem_append, not_or] at valueNoNul
          simp only [List.length_append] at valueShorter
          apply returns_continued valueNoNul.2.2 setUnread fun here => (settled here).2.2.2
          · intro space tail afterSplit comma tailNoNul shorter
            apply (sound.members (by omega) tailNoNul set.valid (laidOut.regular_of_ok rfl)
              (fun here => laidOut.calm_later (isCalm here) name value comma)
              fun here => ⟨(settled here).2.1, (settled here).2.2.1⟩).mono
            intro reply final post
            apply post.behind setUnread
            rintro rest ⟨texts, members, rfl, others⟩
            refine ⟨_, (content, tree) :: members, ?_,
              .members before beforeColon beforeValue space chars derives others⟩
            rw [← split, ← afterSplit]
            simp only [List.append_assoc, List.cons_append]
          · intro space tail afterSplit
            refine ⟨_, [(content, tree)], ?_,
              .member before beforeColon beforeValue space chars derives⟩
            rw [← split, ← afterSplit]
            simp only [List.append_assoc, List.cons_append]

/-- What is accepted at a cursor behind white space is a value. -/
def AcceptsValue (p rest : Bytes) : Prop :=
  ∃ (text : Bytes) (tree : JsonTree Bytes), p = text ++ rest ∧
    Derives Dialect.accepted (.value tree) text ∧ Stops tree rest

omit [CDouble D] in
theorem soundAt_string {tail : Bytes} (noNul : (0 : Byte) ∉ tail) :
    Returns (do
        let some (s, p) ← tenJsonParseString (ascii '"' :: tail)
          | return none
        let some json ← tenJsonAlloc (D := D) (.string s)
          | return none
        return some (json, p))
      grants world (Outcome calm world (AcceptsValue (ascii '"' :: tail))) := by
  have wholeNoNul : (0 : Byte) ∉ ascii '"' :: tail := by
    rw [List.mem_cons, not_or]
    exact ⟨by decide, noNul⟩
  rw [returns_bind]
  apply ((keeps_tenJsonParseString _).returns (tenJsonParseString_sound wholeNoNul)).mono
  rintro reply between ⟨read, unread⟩
  rcases reply with _ | ⟨string, after⟩
  · simp only [returns_pure]
    exact outcome_none fun _ => unread
  obtain ⟨-, text, literal, kept⟩ := read string after rfl
  obtain ⟨content, chars⟩ := kept.chars
  simp only [returns_bind]
  apply ((keeps_tenJsonAlloc _).returns (tenJsonAlloc_spec _)).mono
  rintro reply last ⟨⟨rfl, -⟩ | ⟨json, rfl, rfl⟩, same⟩
  · simp only [returns_pure]
    exact outcome_none fun _ => same.trans unread
  · simp only [returns_pure]
    refine outcome_some (fun _ => same.trans unread) ?_ fun _ => .string _
    refine ⟨_, .string content, ?_, .string chars, fun _ isNumber => by cases isNumber⟩
    rw [literal]
    simp only [List.cons_append, List.append_assoc, List.nil_append]

theorem soundAt_array {steps : Nat} (sound : SoundAt D grants calm steps) {p tail : Bytes}
    (starts : tenJsonSkipWs p = ascii '[' :: tail) (enough : 2 * tail.length + 2 ≤ steps)
    (noNul : (0 : Byte) ∉ tail) (isCalm : calm → Calm (.value p)) :
    Returns (do
        let some arr ← tenJsonCreateArray (D := D)
          | return none
        let p := tenJsonSkipWs tail
        match p with
        | c :: rest =>
            if c = ascii ']' then return some (arr, rest)
            else tenJsonParseElements steps arr p
        | [] => tenJsonParseElements steps arr p)
      grants world (Outcome calm world (AcceptsValue (ascii '[' :: tail))) := by
  rw [returns_bind]
  apply (keeps_tenJsonCreateArray.returns tenJsonCreateArray_spec).mono
  rintro reply after ⟨⟨rfl, -⟩ | ⟨json, rfl, list, rfl, empty⟩, unread⟩
  · simp only [returns_pure]
    exact outcome_none fun _ => unread
  have items : calm → ∀ item ∈ list.items, item.Releasable := by
    rw [empty]
    exact fun _ => List.forall_mem_nil _
  have shorter := length_tenJsonSkipWs_le tail
  obtain ⟨space, split⟩ := exists_skipped tail
  have loop : Returns
      (tenJsonParseElements steps (.array list) (tenJsonSkipWs tail)) grants after
      (Outcome calm world (AcceptsValue (ascii '[' :: tail))) := by
    apply (sound.elements (by omega) (noNul_tenJsonSkipWs noNul) (fun here keys inside =>
      isCalm here keys (.array starts inside)) items).mono
    intro reply last post
    apply post.behind fun _ => unread
    rintro rest ⟨text, trees, inner, derives⟩
    refine ⟨_, .array trees, ?_, .array (derives.pad_elements space), fun _ isNumber => by
      cases isNumber⟩
    rw [← split, inner]
    simp only [List.cons_append, List.append_assoc, List.nil_append]
  cases next : tenJsonSkipWs tail with
  | nil =>
      rw [next] at loop
      exact loop
  | cons c rest =>
      rw [next] at loop split
      simp only
      apply returns_ite
      · intro close
        subst close
        rw [returns_pure]
        refine outcome_some (fun _ => unread) ?_ fun here => .array (items here)
        refine ⟨_, .array [], ?_, .emptyArray space, fun _ isNumber => by cases isNumber⟩
        rw [← split]
        simp only [List.cons_append, List.append_assoc, List.nil_append]
      · intro _
        exact loop

theorem soundAt_object {steps : Nat} (sound : SoundAt D grants calm steps) {p tail : Bytes}
    (starts : tenJsonSkipWs p = ascii '{' :: tail) (enough : 2 * tail.length + 2 ≤ steps)
    (noNul : (0 : Byte) ∉ tail) (isCalm : calm → Calm (.value p)) :
    Returns (do
        let some obj ← tenJsonCreateObject (D := D)
          | return none
        let p := tenJsonSkipWs tail
        match p with
        | c :: rest =>
            if c = ascii '}' then return some (obj, rest)
            else tenJsonParseMembers steps obj p
        | [] => tenJsonParseMembers steps obj p)
      grants world (Outcome calm world (AcceptsValue (ascii '{' :: tail))) := by
  rw [returns_bind]
  apply (keeps_tenJsonCreateObject.returns tenJsonCreateObject_spec).mono
  rintro reply after ⟨⟨-, made⟩, unread⟩
  obtain ⟨rfl, -⟩ | ⟨object, rfl, valid, noMembers, noKeys, buckets, -⟩ := made
  · simp only [returns_pure]
    exact outcome_none fun _ => unread
  have regular := valid.regular_of_empty noKeys buckets
  have keys : object.keys = [] := by
    rw [JsonObject.keys, noKeys]
    rfl
  have values : ∀ member ∈ object.members, member.2.Releasable := by
    rw [noMembers]
    exact List.forall_mem_nil _
  have steady : Steady object.keys := by
    rw [keys]
    exact steady_nil
  have shorter := length_tenJsonSkipWs_le tail
  obtain ⟨space, split⟩ := exists_skipped tail
  have loop : Returns
      (tenJsonParseMembers steps (.object object) (tenJsonSkipWs tail)) grants after
      (Outcome calm world (AcceptsValue (ascii '{' :: tail))) := by
    have stillCalm : calm → Calm (.member object.keys (tenJsonSkipWs tail)) := by
      intro here more inside
      rw [keys] at inside
      exact isCalm here more (.object starts inside)
    apply (sound.members (by omega) (noNul_tenJsonSkipWs noNul) valid regular stillCalm
      fun _ => ⟨steady, values⟩).mono
    intro reply last post
    apply post.behind fun _ => unread
    rintro rest ⟨text, members, inner, derives⟩
    refine ⟨_, .object members, ?_, .object (derives.pad_members space), fun _ isNumber => by
      cases isNumber⟩
    rw [← split, inner]
    simp only [List.cons_append, List.append_assoc, List.nil_append]
  cases next : tenJsonSkipWs tail with
  | nil =>
      rw [next] at loop
      exact loop
  | cons c rest =>
      rw [next] at loop split
      simp only
      apply returns_ite
      · intro close
        subst close
        rw [returns_pure]
        refine outcome_some (fun _ => unread) ?_ fun _ =>
          JsonObject.releasable ((valid.inStep_iff_of_regular regular).mpr steady.inStep) values
        refine ⟨_, .object [], ?_, .emptyObject space, fun _ isNumber => by cases isNumber⟩
        rw [← split]
        simp only [List.cons_append, List.append_assoc, List.nil_append]
      · intro _
        exact loop

/-- `ten__json_parse_value`, from the soundness of what it calls. -/
theorem soundAt_value {steps : Nat} (sound : SoundAt D grants calm steps) {p : Bytes}
    (enough : 2 * p.length + 1 ≤ steps + 1) (noNul : (0 : Byte) ∉ p)
    (isCalm : calm → Calm (.value p)) :
    Returns (tenJsonParseValue (D := D) (steps + 1) p) grants world
      (Outcome calm world (AcceptsValue (tenJsonSkipWs p))) := by
  have shorter := length_tenJsonSkipWs_le p
  have skippedNoNul := noNul_tenJsonSkipWs noNul
  have literal : ∀ {text : Bytes} {node : JsonNode D} {tree : JsonTree Bytes} {start : Bytes},
      node.Releasable → Derives Dialect.accepted (.value tree) text →
      (∀ token, tree ≠ .number token) →
      Returns (tenJsonParseLiteral text (do
        let some json ← tenJsonAlloc node
          | return none
        tenSetError .ok
        return some json) start) grants world (Outcome calm world (AcceptsValue start)) := by
    intro text node tree start releasable derives notNumber
    apply (tenJsonParseLiteral_sound releasable).mono
    intro reply after post
    exact post.behind (fun _ => rfl) fun rest same =>
      ⟨text, tree, same, derives, fun token isNumber => absurd isNumber (notNumber token)⟩
  rw [tenJsonParseValue]
  cases start : tenJsonSkipWs p with
  | nil =>
      simp only [returns_pure]
      exact outcome_none fun _ => rfl
  | cons c tail =>
      rw [start, List.length_cons] at shorter
      rw [start, List.mem_cons, not_or] at skippedNoNul
      have tailNoNul := skippedNoNul.2
      simp only
      apply returns_ite
      · intro _
        exact literal .null .litNull (by simp)
      intro _
      apply returns_ite
      · intro _
        exact literal (.boolean true) .litTrue (by simp)
      intro _
      apply returns_ite
      · intro _
        exact literal (.boolean false) .litFalse (by simp)
      intro _
      apply returns_ite
      · rintro rfl
        exact soundAt_string tailNoNul
      intro _
      apply returns_ite
      · rintro rfl
        exact soundAt_array sound start (by omega) tailNoNul isCalm
      intro _
      apply returns_ite
      · rintro rfl
        exact soundAt_object sound start (by omega) tailNoNul isCalm
      intro _
      apply returns_ite
      · intro starts
        apply (tenJsonParseNumber_sound starts).mono
        intro reply after post
        apply post.behind fun _ => rfl
        rintro rest ⟨token, split, allowed, length⟩
        refine ⟨token, .number token, split, .number allowed, ?_⟩
        intro other same _
        cases same
        exact length
      · intro _
        rw [returns_pure]
        exact outcome_none fun _ => rfl

/-- The parser is sound with any number of steps. -/
theorem soundAt (steps : Nat) : SoundAt D grants calm steps := by
  induction steps with
  | zero =>
      constructor
      · intro world p enough
        omega
      · intro world p list enough
        omega
      · intro world p object enough
        omega
  | succ steps inductionHypothesis =>
      constructor
      · intro world p enough noNul isCalm
        apply (soundAt_value inductionHypothesis enough noNul isCalm).mono
        intro reply after post
        apply post.behind fun _ => rfl
        rintro rest ⟨text, tree, split, derives, stops⟩
        obtain ⟨space, whole⟩ := exists_skipped p
        rw [split] at whole
        exact ⟨space, text, tree, whole.symm, derives, stops⟩
      · intro world p list enough noNul isCalm items
        exact soundAt_elements inductionHypothesis enough noNul isCalm items
      · intro world p object enough noNul valid regular isCalm holds
        exact soundAt_members inductionHypothesis enough noNul valid regular isCalm holds

/-- `ten_json_parse` returns on every text; what it accepts is a text of its
dialect, and every NULL is a parse error.  It reads no freed string when no object of the
text can come to be out of step. -/
theorem tenJsonParse_sound (text : CString) (world : World) :
    Returns (tenJsonParse (D := D) (some text)) grants world (fun reply after =>
      (Calm (.value text.bytes) → after.strayReads = world.strayReads) ∧
        (∀ json, reply = some json → ∃ tree, JsonText Dialect.accepted tree text.bytes) ∧
        (reply = none → after.lastError = .parse)) := by
  simp only [tenJsonParse, returns_bind]
  apply ((soundAt _).value (Nat.le_refl _) text.noNul id).mono
  rintro reply after ⟨unread, read⟩
  rcases reply with _ | ⟨json, rest⟩
  · simp only [returns_bind, returns_tenSetError, returns_pure]
    exact ⟨unread, (fun json same => by cases same), fun _ => trivial⟩
  obtain ⟨⟨before, value, tree, split, derives, -⟩, releasable⟩ := read json rest rfl
  simp only
  apply returns_ite
  · intro _
    rw [returns_bind]
    apply (tenJsonDestroy_spec json).mono
    intro _ last released
    simp only [returns_bind, returns_tenSetError, returns_pure]
    exact ⟨fun here => (released.2.iff.mpr (releasable here)).trans (unread here),
      (fun json same => by cases same), fun _ => trivial⟩
  · intro allRead
    rw [not_not] at allRead
    simp only [returns_bind, returns_tenSetError, returns_pure]
    refine ⟨unread, fun _ _ => ?_, fun same => by cases same⟩
    obtain ⟨space, skipped⟩ := exists_skipped rest
    rw [allRead, List.append_nil] at skipped
    rw [split, ← skipped]
    exact ⟨tree, .intro before space derives⟩

end Soundness

end Dotten
