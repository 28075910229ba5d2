/-
Module: Dotten.Encoding.SizingPasses
Layer: Encoding
Purpose: The passes that compute sizes and the passes that write agree: no index
  leaves its block, and the blocks of the encoder and of the two UTF converters
  are filled to the last element.
Imports: Dotten.Encoding.IndexedCodecs, Dotten.Encoding.UtfConversions,
  Dotten.Encoding.Base64
Main exports: Mirrors, FilledUp, FilledTo, mirrors_tenBase64Encode,
  mirrors_tenBase64Decode, mirrors_tenUtf8ToUtf16, mirrors_tenUtf16ToUtf8,
  sizing_passes_match
-/
import Dotten.Encoding.IndexedCodecs
import Dotten.Encoding.UtfConversions
import Dotten.Encoding.Base64

namespace Dotten

open Dotten.Library

theorem sizeT_of_lt {n : Nat} (small : n < 2 ^ 64) : sizeT n = n := Nat.mod_eq_of_lt small

/-- The elements have all been written, and the last of them is the terminator. -/
def FilledUp {α : Type} (zero : α) (block : Filling α) : Prop :=
  ∃ values, block = (values ++ [zero]).map some

/-- The first `size` elements have been written, and no others. -/
def FilledTo {α : Type} (size : Nat) (block : Filling α) : Prop :=
  ∃ (values : List α) (room : Nat),
    block = values.map some ++ List.replicate room none ∧ size = values.length

/-- The program over indices does what the other one does, where `view` is what
is seen of its results, and its results are good. -/
structure Mirrors {α β : Type} (view : α → β) (Good : α → Prop) (indexed : Ten (Option α))
    (program : Ten (Option β)) : Prop where
  same : Option.map view <$> indexed = program
  good : ∀ (grants : Schedule) (world : World),
    Returns indexed grants world (fun reply _ => ∀ result, reply = some result → Good result)

/-- What a function is given that does not find NULL in front of elements. -/
theorem length_input {α : Type} {input : Option (List α)} {size : Nat}
    (missing : ¬ (input = none ∧ size > 0))
    (there : ∀ elements, input = some elements → size ≤ elements.length) :
    ((input.getD []).take size).length = size := by
  rw [List.length_take]
  cases input with
  | none =>
      have empty : ¬ size > 0 := fun positive => missing ⟨rfl, positive⟩
      rw [Option.getD_none, List.length_nil]
      omega
  | some elements => exact Nat.min_eq_left (there elements rfl)

/-- What has been written can be read. -/
theorem map_getD_some {α : Type} (zero : α) (values : List α) :
    ((values.map some).map fun element => element.getD zero) = values := by
  rw [List.map_map]
  exact List.map_id values

/-- The string at a block. -/
def seenText (block : Filling Byte) : CString :=
  CString.ofMemory (block.map fun element => element.getD 0)

theorem seenText_map (values : Bytes) : seenText (values.map some) = CString.ofMemory values := by
  rw [seenText, map_getD_some]

section Mirroring

variable {α β : Type} {view : α → β} {Good : α → Prop}

theorem mirrors_refuse (code : TenErrorCode) :
    Mirrors view Good
      (do
        tenSetError code
        return none)
      (do
        tenSetError code
        return none) where
  same := by simp only [map_eq_pure_bind, bind_assoc, pure_bind, Option.map_none]
  good grants world := by
    rw [returns_bind, returns_tenSetError, returns_pure]
    intro result impossible
    cases impossible

theorem mirrors_succeed {result : α} (good : Good result) :
    Mirrors view Good
      (do
        tenSetError .ok
        return some result)
      (do
        tenSetError .ok
        return some (view result)) where
  same := by simp only [map_eq_pure_bind, bind_assoc, pure_bind, Option.map_some]
  good grants world := by
    rw [returns_bind, returns_tenSetError, returns_pure]
    intro other same
    cases same
    exact good

theorem Mirrors.afterMalloc {indexed : Ten (Option α)} {program : Ten (Option β)}
    (mirrors : Mirrors view Good indexed program) :
    Mirrors view Good
      (do
        let some _ ← tenMalloc
          | return none
        indexed)
      (do
        let some _ ← tenMalloc
          | return none
        program) where
  same := by
    rw [map_eq_pure_bind, bind_assoc]
    congr 1
    funext answer
    cases answer with
    | none => rfl
    | some address =>
        rw [← mirrors.same, map_eq_pure_bind]
  good grants world := by
    rw [returns_bind, returns_tenMalloc]
    refine ⟨fun _ => mirrors.good grants _, fun _ => ?_⟩
    rw [returns_pure]
    intro result impossible
    cases impossible

end Mirroring

/-! ### Base64 -/

section Encoder

variable {bytes : Bytes} {i : Nat}

theorem tenBase64EncodeLoop_step (nonempty : bytes ≠ []) :
    tenBase64EncodeLoop bytes =
      tenBase64EncodeOne bytes ++ tenBase64EncodeLoop (bytes.drop 3) := by
  match bytes with
  | [] => exact absurd rfl nonempty
  | [a] => exact (List.append_nil _).symm
  | [a, b] => exact (List.append_nil _).symm
  | a :: b :: c :: rest => rfl

theorem length_tenBase64EncodeOne (bytes : Bytes) : (tenBase64EncodeOne bytes).length = 4 := rfl

theorem length_tenBase64EncodeLoop (bytes : Bytes) :
    (tenBase64EncodeLoop bytes).length = (bytes.length + 2) / 3 * 4 := by
  induction bytes using tenBase64EncodeLoop.induct with
  | case1 => rfl
  | case2 a =>
      rw [tenBase64EncodeLoop, length_tenBase64EncodeOne, List.length_singleton]
  | case3 a b =>
      rw [tenBase64EncodeLoop, length_tenBase64EncodeOne, List.length_cons, List.length_singleton]
  | case4 a b c rest inductionHypothesis =>
      rw [tenBase64EncodeLoop, List.length_append, inductionHypothesis, length_tenBase64EncodeOne]
      simp only [List.length_cons]
      omega

/-- A pass of the encoder reads the bytes that remain, three at most. -/
theorem encodePass_eq (small : bytes.length < 2 ^ 62) (below : i < bytes.length)
    (out : Output Byte) :
    Indexed.encodePass bytes bytes.length i out = (do
      let out ← out.putAll (tenBase64EncodeOne (bytes.drop i))
      return .on (i + 3) out) := by
  have first : sizeT (i + 1) = i + 1 := sizeT_of_lt (by omega)
  have second : sizeT (i + 2) = i + 2 := sizeT_of_lt (by omega)
  have third : sizeT (i + 3) = i + 3 := sizeT_of_lt (by omega)
  have here : (readAt bytes i : Ten Byte) = ofOption (bytes.drop i)[0]? := readAt_add bytes i 0
  have next : (readAt bytes (i + 1) : Ten Byte) = ofOption (bytes.drop i)[1]? := readAt_add bytes i 1
  have last : (readAt bytes (i + 2) : Ten Byte) = ofOption (bytes.drop i)[2]? := readAt_add bytes i 2
  have length : (bytes.drop i).length = bytes.length - i := List.length_drop
  simp only [Indexed.encodePass, Indexed.readIf, first, second, third, here, next, last]
  match rest : bytes.drop i with
  | [] =>
      rw [rest, List.length_nil] at length
      omega
  | [a] =>
      rw [rest] at length
      have one : ¬ i + 1 < bytes.length := by
        rw [List.length_singleton] at length
        omega
      have two : ¬ i + 2 < bytes.length := by omega
      simp only [if_neg one, if_neg two]
      rfl
  | [a, b] =>
      rw [rest] at length
      have one : i + 1 < bytes.length := by
        simp only [List.length_cons, List.length_nil] at length
        omega
      have two : ¬ i + 2 < bytes.length := by
        simp only [List.length_cons, List.length_nil] at length
        omega
      simp only [if_pos one, if_neg two]
      rfl
  | a :: b :: c :: others =>
      rw [rest] at length
      have two : i + 2 < bytes.length := by
        simp only [List.length_cons] at length
        omega
      have one : i + 1 < bytes.length := by omega
      simp only [if_pos one, if_pos two, tenBase64EncodeOne, List.length_cons]
      rfl

/-- The loop of the encoder as a loop over the text. -/
theorem scanWords_encode {γ : Type} {late fail : γ} {finish : Bytes → γ} :
    ∀ (bound : Nat) (bytes done : Bytes), bytes.length ≤ bound →
      scanWords (fun text => some (tenBase64EncodeOne text, 3)) late fail finish
        (fun done group => done ++ group) bound bytes done =
          finish (done ++ tenBase64EncodeLoop bytes) := by
  intro bound
  induction bound with
  | zero =>
      intro bytes done enough
      obtain rfl := List.eq_nil_of_length_eq_zero (Nat.le_zero.mp enough)
      rw [scanWords, tenBase64EncodeLoop, List.append_nil]
  | succ bound inductionHypothesis =>
      intro bytes done enough
      cases bytes with
      | nil => rw [scanWords, tenBase64EncodeLoop, List.append_nil]
      | cons head tail =>
          have shorter : ((head :: tail).drop 3).length ≤ bound := by
            rw [List.length_drop]
            omega
          rw [scanWords]
          dsimp only
          rw [inductionHypothesis _ _ shorter, tenBase64EncodeLoop_step (List.cons_ne_nil head tail),
            List.append_assoc]

/-- The loop fills a block that has room for the characters and the NUL. -/
theorem encodeLoop_eq (small : bytes.length < 2 ^ 62) :
    indexLoop bytes.length (Indexed.encodePass bytes bytes.length)
        (fun out => do
          let block ← out.close 0
          tenSetError .ok
          return some block)
        bytes.length 0 (Output.fresh ((bytes.length + 2) / 3 * 4 + 1)) = (do
      tenSetError .ok
      return some ((tenBase64EncodeLoop bytes ++ [0]).map some)) := by
  have filled : ∀ (bound i : Nat) (out : Output Byte) (done : Bytes), bytes.length ≤ i + bound →
      out = Output.after done ((tenBase64EncodeLoop (bytes.drop i)).length + 1) →
      indexLoop bytes.length (Indexed.encodePass bytes bytes.length)
          (fun out => do
            let block ← out.close 0
            tenSetError .ok
            return some block)
          bound i out =
        scanWords (fun text => some (tenBase64EncodeOne text, 3)) stuck stuck
          (fun done => do
            tenSetError .ok
            return some ((done ++ [0]).map some))
          (fun done group => done ++ group) bound (bytes.drop i) done := by
    refine indexLoop_eq_scanWords ?_ ?_ ?_
    · rintro i out done - - impossible
      cases impossible
    · rintro i out done group n below rfl found
      cases found
      refine ⟨by decide, Output.after (done ++ tenBase64EncodeOne (bytes.drop i))
        ((tenBase64EncodeLoop (bytes.drop (i + 3))).length + 1), ?_, rfl⟩
      have nonempty : bytes.drop i ≠ [] := by
        rw [ne_eq, List.drop_eq_nil_iff]
        omega
      rw [encodePass_eq small below, tenBase64EncodeLoop_step nonempty, List.drop_drop,
        List.length_append, Nat.add_assoc, Output.putAll_after, pure_bind]
    · rintro i out done beyond rfl
      rw [List.drop_eq_nil_of_le beyond, tenBase64EncodeLoop, List.length_nil, Output.close_after,
        pure_bind, List.replicate_zero, List.append_nil]
  have start := filled bytes.length 0 _ [] (by omega) rfl
  rw [List.drop_zero, scanWords_encode _ _ _ (Nat.le_refl _), List.nil_append,
    length_tenBase64EncodeLoop] at start
  exact start

/-- `ten_base64_encode` fills its block. -/
theorem mirrors_tenBase64Encode {data : Option Bytes} {size : Nat} (small : size < 2 ^ 62)
    (there : ∀ bytes, data = some bytes → size ≤ bytes.length) :
    Mirrors seenText (FilledUp 0) (Indexed.tenBase64Encode data size)
      (tenBase64Encode data size) := by
  rw [Indexed.tenBase64Encode, tenBase64Encode]
  by_cases missing : data = none ∧ size > 0
  · rw [if_pos missing, if_pos missing]
    exact mirrors_refuse .nullArgument
  rw [if_neg missing, if_neg missing]
  have length := length_input missing there
  generalize (data.getD []).take size = bytes at length
  subst length
  have rounded : sizeT (bytes.length + 2) = bytes.length + 2 := sizeT_of_lt (by omega)
  have text : sizeT ((bytes.length + 2) / 3 * 4) = (bytes.length + 2) / 3 * 4 :=
    sizeT_of_lt (by omega)
  have whole : sizeT ((bytes.length + 2) / 3 * 4 + 1) = (bytes.length + 2) / 3 * 4 + 1 :=
    sizeT_of_lt (by omega)
  have fits : ¬ (tenBase64EncodeLoop bytes).length > (bytes.length + 2) / 3 * 4 :=
    Nat.not_lt.mpr (Nat.le_of_eq (length_tenBase64EncodeLoop bytes))
  rw [rounded, text]
  dsimp only
  rw [whole, encodeLoop_eq small, if_neg fits]
  have result := @mirrors_succeed _ _ seenText (FilledUp 0) _ ⟨tenBase64EncodeLoop bytes, rfl⟩
  rw [seenText_map] at result
  exact result.afterMalloc

end Encoder

section Decoder

variable {text : Bytes} {i : Nat}

/-- A pass of the decoder that has four characters. -/
theorem decodePass_eq (small : text.length < 2 ^ 62) (whole : i + 4 ≤ text.length)
    (out : Output Byte) :
    Indexed.decodePass text i out =
      match tenBase64DecodeOne (text.drop i) with
      | none => (fun result => .leave result) <$> (do
          tenSetError .encoding
          return none)
      | some (group, n) => do
          let out ← out.putAll group.bytes
          return .on (i + n) out := by
  have second : sizeT (i + 1) = i + 1 := sizeT_of_lt (by omega)
  have third : sizeT (i + 2) = i + 2 := sizeT_of_lt (by omega)
  have fourth : sizeT (i + 3) = i + 3 := sizeT_of_lt (by omega)
  have next : sizeT (i + 4) = i + 4 := sizeT_of_lt (by omega)
  have reads (offset : Nat) : (readAt text (i + offset) : Ten Byte) =
      ofOption (text.drop i)[offset]? := readAt_add text i offset
  have first : (readAt text i : Ten Byte) = ofOption (text.drop i)[0]? := reads 0
  have length : (text.drop i).length = text.length - i := List.length_drop
  simp only [Indexed.decodePass, second, third, fourth, next, first, reads]
  match rest : text.drop i with
  | c0 :: c1 :: c2 :: c3 :: others =>
      simp only [tenBase64DecodeOne, List.getElem?_cons_zero, List.getElem?_cons_succ,
        ofOption_some, pure_bind]
      split_ifs with rejected
      · simp only [map_eq_pure_bind, bind_assoc, pure_bind]
      · rfl
  | [] | [_] | [_, _] | [_, _, _] =>
      rw [rest] at length
      simp only [List.length_cons, List.length_nil] at length
      omega

/-- The loop stays in a block that has three bytes for every four characters. -/
theorem decodeLoop_eq (small : text.length < 2 ^ 62) (groups : text.length % 4 = 0) {size : Nat}
    (room : text.length / 4 * 3 ≤ size) :
    indexLoop text.length (Indexed.decodePass text)
        (fun out => do
          tenSetError .ok
          return some (out.block, out.pos))
        text.length 0 (Output.fresh size) =
      scanWords tenBase64DecodeOne stuck
        (do
          tenSetError .encoding
          return none)
        (fun done => do
          tenSetError .ok
          return some ((Output.after done (size - done.length)).block, done.length))
        (fun done group => done ++ group.bytes) text.length text [] := by
  refine indexLoop_eq_scanWords
    (R := fun i out done => out = Output.after done (size - done.length) ∧
      done.length ≤ i / 4 * 3 ∧ i % 4 = 0) ?_ ?_ ?_ text.length 0 _ [] ?_ ⟨rfl, Nat.le_refl 0, rfl⟩
  · rintro i out done below ⟨-, -, aligned⟩ found
    rw [decodePass_eq small (by omega), found]
  · rintro i out done group n below ⟨rfl, few, aligned⟩ found
    obtain ⟨wellFormed, -, rfl⟩ := tenBase64DecodeOne_reads.next_iff.mp found
    have short := length_bytes wellFormed
    have four : group.text.length = 4 := rfl
    have split : size - done.length =
        group.bytes.length + (size - (done ++ group.bytes).length) := by
      rw [List.length_append]
      omega
    refine ⟨by omega, Output.after (done ++ group.bytes) (size - (done ++ group.bytes).length), ?_,
      rfl, ?_, by omega⟩
    · rw [decodePass_eq small (by omega), found, split]
      dsimp only
      rw [Output.putAll_after, pure_bind]
    · rw [List.length_append]
      omega
  · rintro i out done beyond ⟨rfl, -⟩
    rfl
  · omega

/-- What is seen of a block of which the first bytes count. -/
def seenBytes (result : Filling Byte × Nat) : Bytes × Nat :=
  ((result.1.take result.2).map fun element => element.getD 0, result.2)

theorem seenBytes_after (done : Bytes) (room : Nat) :
    seenBytes ((Output.after done room).block, done.length) = (done, done.length) := by
  have taken : ((Output.after done room).block).take done.length = done.map some := by
    rw [Output.after, List.take_append_of_le_length (by rw [List.length_map]),
      List.take_of_length_le (by rw [List.length_map])]
  rw [seenBytes, taken, map_getD_some]

theorem filledTo_after {α : Type} (done : List α) (room : Nat) :
    FilledTo done.length (Output.after done room).block :=
  ⟨done, room, rfl, rfl⟩

/-- `ten_base64_decode` stays in its block. -/
theorem mirrors_tenBase64Decode {text : Option CString}
    (small : ∀ string, text = some string → string.length < 2 ^ 62) :
    Mirrors seenBytes (fun result => FilledTo result.2 result.1) (Indexed.tenBase64Decode text)
      (tenBase64Decode text) := by
  cases text with
  | none => exact mirrors_refuse .nullArgument
  | some text =>
      have short := small text rfl
      rw [Indexed.tenBase64Decode, tenBase64Decode]
      by_cases odd : text.length % 4 ≠ 0
      · rw [if_pos odd, if_pos odd]
        exact mirrors_refuse .encoding
      rw [if_neg odd, if_neg odd]
      have asked : sizeT (text.length / 4 * 3) = text.length / 4 * 3 := sizeT_of_lt (by omega)
      have room : text.length / 4 * 3 ≤
          if text.length / 4 * 3 > 0 then text.length / 4 * 3 else 1 := by
        split_ifs <;> omega
      have loop := decodeLoop_eq short (not_not.mp odd) room
      rw [asked]
      dsimp only
      change Mirrors _ _ (do
        let some _ ← tenMalloc
          | return none
        indexLoop text.bytes.length _ _ text.bytes.length 0 _) _
      rw [loop]
      apply Mirrors.afterMalloc
      by_cases spelled : ∃ groups,
          Spells Base64Group.WellFormed Base64Group.text groups text.bytes
      · obtain ⟨groups, spells⟩ := spelled
        have enough : text.bytes.length ≤ text.length := Nat.le_refl _
        have characters : text.length = 4 * groups.length := by
          rw [CString.length, ← spells.text, length_flatMap_text]
        have fits : ¬ (groups.flatMap Base64Group.bytes).length > text.length / 4 * 3 := by
          have total := length_flatMap_bytes spells.valid
          omega
        have seen := seenBytes_after (groups.flatMap Base64Group.bytes)
        simp only [tenBase64DecodeOne_reads.scanWords_of_spells id enough spells,
          tenBase64DecodeOne_reads.scanWords_of_spells id (Nat.le_refl text.bytes.length) spells,
          foldl_append_word (fun group _ => rfl), List.nil_append, if_neg fits]
        rw [← seen]
        exact @mirrors_succeed _ _ seenBytes (fun result => FilledTo result.2 result.1)
          ((Output.after _ _).block, _) (filledTo_after _ _)
      · have unspelled := not_exists.mp spelled
        have enough : text.bytes.length ≤ text.length := Nat.le_refl _
        rw [tenBase64DecodeOne_reads.scanWords_of_not_spells (Nat.le_refl text.bytes.length) unspelled,
          tenBase64DecodeOne_reads.scanWords_of_not_spells enough unspelled]
        exact mirrors_refuse .encoding

end Decoder

/-! ### UTF-8 to UTF-16 -/

section ToUtf16

variable {text : Bytes} {i : Nat}

/-- A read of a byte behind the first one. -/
theorem readAt_tail {c : Byte} {tail : Bytes} (rest : text.drop i = c :: tail) {k : Nat}
    (within : k < tail.length) :
    (readAt text (i + (k + 1)) : Ten Byte) = pure (tail.getD k 0) := by
  rw [readAt_add, rest, List.getElem?_cons_succ, List.getElem?_eq_getElem within, ofOption_some,
    List.getD_eq_getElem _ _ within]

/-- A guard that looks at bytes only if enough of them remain. -/
theorem andAlso_eq {condition : Prop} [Decidable condition] {fact : Prop} [Decidable fact]
    {remaining count : Nat} {second : Ten Bool}
    (same : remaining ≥ count → second = pure (decide fact)) :
    Indexed.andAlso (condition ∧ remaining ≥ count) second =
      pure (decide (condition ∧ remaining ≥ count ∧ fact)) := by
  unfold Indexed.andAlso
  split_ifs with holds
  · rw [same holds.2]
    congr 1
    exact decide_eq_decide.mpr ⟨fun fact => ⟨holds.1, holds.2, fact⟩, fun all => all.2.2⟩
  · congr 1
    exact (decide_eq_false fun all => holds ⟨all.1, all.2.1⟩).symm

section Forms

variable {c : Byte} {tail : Bytes} (rest : text.drop i = c :: tail)

include rest

theorem continuations_succ {k : Nat} (count : Nat) (within : k < tail.length) :
    Indexed.continuations text (i + (k + 1)) (count + 1) =
      if tail.getD k 0 &&& 0xC0 = 0x80 then Indexed.continuations text (i + (k + 2)) count
      else pure false := by
  rw [Indexed.continuations, readAt_tail rest within, pure_bind]
  rfl

theorem continuations_one (long : tail.length + 1 ≥ 2) :
    Indexed.continuations text (i + 1) 1 = pure (decide (tail.getD 0 0 &&& 0xC0 = 0x80)) := by
  rw [continuations_succ rest 0 (by omega)]
  split_ifs with tag
  · rw [decide_eq_true tag]
    rfl
  · rw [decide_eq_false tag]

theorem continuations_two (long : tail.length + 1 ≥ 3) :
    Indexed.continuations text (i + 1) 2 =
      pure (decide (tail.getD 0 0 &&& 0xC0 = 0x80 ∧ tail.getD 1 0 &&& 0xC0 = 0x80)) := by
  rw [continuations_succ rest 1 (by omega), continuations_succ rest 0 (by omega)]
  split_ifs with tag1 tag2
  · rw [decide_eq_true ⟨tag1, tag2⟩]
    rfl
  · rw [decide_eq_false fun tags => tag2 tags.2]
  · rw [decide_eq_false fun tags => tag1 tags.1]

theorem continuations_three (long : tail.length + 1 ≥ 4) :
    Indexed.continuations text (i + 1) 3 =
      pure (decide (tail.getD 0 0 &&& 0xC0 = 0x80 ∧ tail.getD 1 0 &&& 0xC0 = 0x80 ∧
        tail.getD 2 0 &&& 0xC0 = 0x80)) := by
  rw [continuations_succ rest 2 (by omega), continuations_succ rest 1 (by omega),
    continuations_succ rest 0 (by omega)]
  split_ifs with tag1 tag2 tag3
  · rw [decide_eq_true ⟨tag1, tag2, tag3⟩]
    rfl
  · rw [decide_eq_false fun tags => tag3 tags.2.2]
  · rw [decide_eq_false fun tags => tag2 tags.2.1]
  · rw [decide_eq_false fun tags => tag1 tags.1]

theorem decodeTwo_eq (long : tail.length + 1 ≥ 2) :
    Indexed.decodeTwo text i c =
      (let cp := (c &&& 0x1F).toNat <<< 6 ||| (tail.getD 0 0 &&& 0x3F).toNat
      pure (if cp ≥ 0x80 then some (cp, 2) else none)) := by
  rw [Indexed.decodeTwo, readAt_tail rest (k := 0) (by omega), pure_bind]

theorem decodeThree_eq (long : tail.length + 1 ≥ 3) :
    Indexed.decodeThree text i c =
      (let cp := (c &&& 0x0F).toNat <<< 12 ||| (tail.getD 0 0 &&& 0x3F).toNat <<< 6 |||
        (tail.getD 1 0 &&& 0x3F).toNat
      pure (if cp ≥ 0x800 then some (cp, 3) else none)) := by
  rw [Indexed.decodeThree, readAt_tail rest (k := 0) (by omega), pure_bind,
    readAt_tail rest (k := 1) (by omega), pure_bind]

theorem decodeFour_eq (long : tail.length + 1 ≥ 4) :
    Indexed.decodeFour text i c =
      (let cp := (c &&& 0x07).toNat <<< 18 ||| (tail.getD 0 0 &&& 0x3F).toNat <<< 12 |||
        (tail.getD 1 0 &&& 0x3F).toNat <<< 6 ||| (tail.getD 2 0 &&& 0x3F).toNat
      pure (if cp ≥ 0x10000 ∧ cp ≤ 0x10FFFF then some (cp, 4) else none)) := by
  rw [Indexed.decodeFour, readAt_tail rest (k := 0) (by omega), pure_bind,
    readAt_tail rest (k := 1) (by omega), pure_bind, readAt_tail rest (k := 2) (by omega), pure_bind]

theorem utf8DecodeOne_cons :
    Indexed.tenUtf8DecodeOne text i (tail.length + 1) = pure (tenUtf8DecodeOne (c :: tail)) := by
  rw [Indexed.tenUtf8DecodeOne, readAt_of_drop rest, pure_bind, andAlso_eq (continuations_one rest),
    andAlso_eq (continuations_two rest), andAlso_eq (continuations_three rest)]
  simp only [pure_bind, decide_eq_true_eq, tenUtf8DecodeOne]
  -- the guards are those of the decoder of texts, one branch after the other
  by_cases single : c < 0x80
  · simp only [if_pos single]
  by_cases two : c &&& 0xE0 = 0xC0 ∧ tail.length + 1 ≥ 2 ∧ tail.getD 0 0 &&& 0xC0 = 0x80
  · simp only [if_neg single, if_pos two, decodeTwo_eq rest two.2.1]
  by_cases three : c &&& 0xF0 = 0xE0 ∧ tail.length + 1 ≥ 3 ∧ tail.getD 0 0 &&& 0xC0 = 0x80 ∧
      tail.getD 1 0 &&& 0xC0 = 0x80
  · simp only [if_neg single, if_neg two, if_pos three, decodeThree_eq rest three.2.1]
  by_cases four : c &&& 0xF8 = 0xF0 ∧ tail.length + 1 ≥ 4 ∧ tail.getD 0 0 &&& 0xC0 = 0x80 ∧
      tail.getD 1 0 &&& 0xC0 = 0x80 ∧ tail.getD 2 0 &&& 0xC0 = 0x80
  · simp only [if_neg single, if_neg two, if_neg three, if_pos four,
      decodeFour_eq rest four.2.1]
  · simp only [if_neg single, if_neg two, if_neg three, if_neg four]

end Forms

/-- The decoder reads the bytes that remain, and of these as many as its guards
allow. -/
theorem utf8DecodeOne_eq (below : i < text.length) :
    Indexed.tenUtf8DecodeOne text i (text.length - i) = pure (tenUtf8DecodeOne (text.drop i)) := by
  have length : (text.drop i).length = text.length - i := List.length_drop
  obtain ⟨c, tail, rest⟩ := List.exists_cons_of_length_pos (l := text.drop i) (by omega)
  rw [← length, rest]
  exact utf8DecodeOne_cons rest

/-- The first loop counts without wrapping, one unit for a byte at most. -/
theorem countUnits_eq (small : text.length < 2 ^ 62) :
    Indexed.countUnits text = tenUtf8CountUnits text := by
  refine tenUtf8DecodeOne_reads.indexLoop_counts 1 ?_ ?_ ?_
  · intro i n below few found
    rw [Indexed.countUnitsPass, utf8DecodeOne_eq below, pure_bind, found]
    simp only [map_eq_pure_bind, bind_assoc, pure_bind]
  · intro i n cp k below few found
    obtain ⟨-, starts, rfl⟩ := tenUtf8DecodeOne_reads.next_iff.mp found
    have within := starts.length_le
    rw [List.length_drop] at within
    have added : (if cp > 0xFFFF then 2 else 1) ≤ 2 := by split_ifs <;> omega
    have next : sizeT (i + (utf8Word cp).length) = i + (utf8Word cp).length :=
      sizeT_of_lt (by omega)
    have total : sizeT (n + if cp > 0xFFFF then 2 else 1) = n + if cp > 0xFFFF then 2 else 1 :=
      sizeT_of_lt (by omega)
    rw [Indexed.countUnitsPass, utf8DecodeOne_eq below, pure_bind, found]
    dsimp only
    rw [next, total]
  · intro cp point
    rw [length_utf8Word]
    split_ifs <;> omega

theorem writeUnits_eq (small : text.length < 2 ^ 62) {points : List Nat}
    (spells : Spells IsCodePoint utf8Word points text) :
    Indexed.writeUnits text ((points.flatMap utf16Word).length + 1) =
      pure ((points.flatMap utf16Word ++ [0]).map some) := by
  refine tenUtf8DecodeOne_reads.indexLoop_writes ?_ spells
  intro i out cp k below found
  obtain ⟨-, starts, rfl⟩ := tenUtf8DecodeOne_reads.next_iff.mp found
  have within := starts.length_le
  rw [List.length_drop] at within
  have next : sizeT (i + (utf8Word cp).length) = i + (utf8Word cp).length := sizeT_of_lt (by omega)
  rw [Indexed.writeUnitsPass, utf8DecodeOne_eq below, pure_bind, found]
  dsimp only
  rw [next, tenUtf16Units_eq]

/-- A code point has no more units than bytes. -/
theorem length_utf16Word_le (cp : Nat) : (utf16Word cp).length ≤ 1 * (utf8Word cp).length := by
  rw [length_utf16Word, length_utf8Word]
  split_ifs <;> omega

/-- What is seen of a block and the length that is reported. -/
def seenUnits (result : Filling UInt16 × Nat) : List UInt16 × Nat :=
  (result.1.dropLast.map fun element => element.getD 0, result.2)

theorem seenUnits_map (units : List UInt16) (length : Nat) :
    seenUnits ((units ++ [0]).map some, length) = (units, length) := by
  rw [seenUnits, List.map_append, List.map_singleton, List.dropLast_concat, map_getD_some]

/-- The block is filled, and the length that is reported is the number of units in
front of the zero. -/
def FilledUnits (result : Filling UInt16 × Nat) : Prop :=
  FilledUp 0 result.1 ∧ result.1.length = result.2 + 1

/-- `ten_utf8_to_utf16` fills its block, and reports the number of units. -/
theorem mirrors_tenUtf8ToUtf16 {utf8 : Option CString}
    (small : ∀ text, utf8 = some text → text.length < 2 ^ 62) :
    Mirrors seenUnits FilledUnits (Indexed.tenUtf8ToUtf16 utf8) (tenUtf8ToUtf16 utf8) := by
  cases utf8 with
  | none => exact mirrors_refuse .nullArgument
  | some text =>
      have short := small text rfl
      rw [Indexed.tenUtf8ToUtf16, tenUtf8ToUtf16, countUnits_eq short]
      by_cases spelled : ∃ points, Spells IsCodePoint utf8Word points text.bytes
      · obtain ⟨points, spells⟩ := spelled
        have few := length_flatMap_le length_utf16Word_le points
        rw [spells.text] at few
        have bytes : text.bytes.length < 2 ^ 62 := short
        have units : sizeT ((points.flatMap utf16Word).length + 1) =
            (points.flatMap utf16Word).length + 1 := sizeT_of_lt (by omega)
        have asked : sizeT (((points.flatMap utf16Word).length + 1) * 2) / 2 =
            (points.flatMap utf16Word).length + 1 := by
          rw [sizeT_of_lt (by omega), Nat.mul_div_cancel _ Nat.two_pos]
        have fits : ¬ (points.flatMap utf16Word).length > (points.flatMap utf16Word).length :=
          Nat.lt_irrefl _
        simp only [tenUtf8CountUnits_of_spells spells, tenUtf8WriteUnits_of_spells spells, units,
          asked, writeUnits_eq short spells, pure_bind, if_neg fits]
        rw [← seenUnits_map]
        apply Mirrors.afterMalloc
        refine @mirrors_succeed _ _ seenUnits FilledUnits (_, _) ⟨⟨_, rfl⟩, ?_⟩
        rw [List.length_map, List.length_append]
        rfl
      · rw [tenUtf8CountUnits_of_not_spells (not_exists.mp spelled)]
        simp only [bind_assoc, pure_bind]
        exact mirrors_refuse .encoding

end ToUtf16

/-! ### UTF-16 to UTF-8 -/

section ToUtf8

variable {units : List UInt16} {i : Nat}

/-- A pass of the first loop takes the word that remains first. -/
theorem countBytesPass_eq (small : units.length < 2 ^ 62) (below : i < units.length) {n : Nat}
    (few : n ≤ 3 * i) :
    Indexed.countBytesPass units units.length i n =
      match tenUtf16DecodeOne (units.drop i) with
      | none => (fun result => .leave result) <$> (do
          tenSetError .encoding
          return none)
      | some (cp, k) => pure (.on (i + k) (n + Indexed.utf8Size cp)) := by
  have behind : sizeT (i + 1) = i + 1 := sizeT_of_lt (by omega)
  have further : sizeT (i + 1 + 1) = i + 2 := sizeT_of_lt (by omega)
  have total : ∀ cp, sizeT (n + Indexed.utf8Size cp) = n + Indexed.utf8Size cp := by
    intro cp
    have most : Indexed.utf8Size cp ≤ 4 := by
      unfold Indexed.utf8Size
      split_ifs <;> omega
    exact sizeT_of_lt (by omega)
  have length : (units.drop i).length = units.length - i := List.length_drop
  obtain ⟨u, tail, rest⟩ := List.exists_cons_of_length_pos (l := units.drop i) (by omega)
  have next : (readAt units (i + 1) : Ten UInt16) = ofOption tail[0]? := by
    rw [readAt_add, rest, List.getElem?_cons_succ]
  rw [rest, List.length_cons] at length
  rw [rest]
  simp only [Indexed.countBytesPass, Indexed.unpaired, Indexed.pairAt, behind, further, total, next,
    readAt_of_drop rest, pure_bind, tenUtf16DecodeOne]
  by_cases isHigh : u ≥ 0xD800 ∧ u ≤ 0xDBFF
  · cases tail with
    | nil =>
        have beyond : i + 1 ≥ units.length := by
          rw [List.length_nil] at length
          omega
        simp only [if_pos isHigh, if_pos beyond, if_true, pure_bind, map_eq_pure_bind, bind_assoc]
    | cons low tail =>
        have within : ¬ i + 1 ≥ units.length := by
          rw [List.length_cons] at length
          omega
        by_cases alone : low < 0xDC00 ∨ low > 0xDFFF
        · simp only [if_pos isHigh, if_neg within, if_pos alone, List.getElem?_cons_zero,
            ofOption_some, pure_bind, decide_eq_true alone, if_true, map_eq_pure_bind, bind_assoc]
        · simp only [if_pos isHigh, if_neg within, if_neg alone, List.getElem?_cons_zero,
            ofOption_some, pure_bind, decide_eq_false alone, Bool.false_eq_true, if_false]
  · by_cases isLow : u ≥ 0xDC00 ∧ u ≤ 0xDFFF
    · simp only [if_neg isHigh, if_pos isLow, map_eq_pure_bind, bind_assoc, pure_bind]
    · simp only [if_neg isHigh, if_neg isLow]

/-- A pass of the second loop takes the same word where the first loop has found
one. -/
theorem writeBytesPass_eq (small : units.length < 2 ^ 62) (below : i < units.length) {cp k : Nat}
    (found : tenUtf16DecodeOne (units.drop i) = some (cp, k)) (out : Output Byte) :
    Indexed.writeBytesPass units i out = (do
      let out ← out.putAll (tenUtf8Bytes cp)
      return .on (i + k) out) := by
  have behind : sizeT (i + 1) = i + 1 := sizeT_of_lt (by omega)
  have further : sizeT (i + 1 + 1) = i + 2 := sizeT_of_lt (by omega)
  rcases tenUtf16DecodeOne_cases found with
    ⟨high, low, rest, here, isHigh, isLow, rfl, rfl⟩ | ⟨u, rest, here, notHigh, notLow, rfl, rfl⟩
  · have next : (readAt units (i + 1) : Ten UInt16) = pure low := by
      rw [readAt_add, here, List.getElem?_cons_succ, List.getElem?_cons_zero, ofOption_some]
    simp only [Indexed.writeBytesPass, Indexed.pairAt, behind, further, readAt_of_drop here, next,
      pure_bind, if_pos (high_iff.mpr isHigh), point_eq]
  · simp only [Indexed.writeBytesPass, behind, readAt_of_drop here, pure_bind,
      if_neg (high_iff.not.mpr notHigh)]

/-- The first loop counts without wrapping, three bytes for a unit at most. -/
theorem countBytes_eq (small : units.length < 2 ^ 62) :
    Indexed.countBytes units units.length = tenUtf16CountBytes units := by
  refine tenUtf16DecodeOne_reads.indexLoop_counts 3 ?_ ?_ ?_
  · intro i n below few found
    rw [countBytesPass_eq small below few, found]
  · intro i n cp k below few found
    rw [countBytesPass_eq small below few, found]
    rfl
  · intro cp point
    rw [length_utf16Word]
    split_ifs <;> omega

theorem writeBytes_eq (small : units.length < 2 ^ 62) {points : List Nat}
    (spells : Spells Nat.isValidChar utf16Word points units) :
    Indexed.writeBytes units units.length ((points.flatMap utf8Word).length + 1) =
      pure ((points.flatMap utf8Word ++ [0]).map some) := by
  refine tenUtf16DecodeOne_reads.indexLoop_writes ?_ spells
  intro i out cp k below found
  obtain ⟨scalar, -, -⟩ := tenUtf16DecodeOne_reads.next_iff.mp found
  rw [writeBytesPass_eq small below found, tenUtf8Bytes_eq (isValidChar_iff.mp scalar).1]

/-- A code point has no more than three bytes for each of its units. -/
theorem length_utf8Word_le (cp : Nat) : (utf8Word cp).length ≤ 3 * (utf16Word cp).length := by
  rw [length_utf16Word, length_utf8Word]
  split_ifs <;> omega

/-- `ten_utf16_to_utf8` fills its block. -/
theorem mirrors_tenUtf16ToUtf8 {utf16 : Option (List UInt16)} {length : Nat}
    (small : length < 2 ^ 62) (there : ∀ units, utf16 = some units → length ≤ units.length) :
    Mirrors seenText (FilledUp 0) (Indexed.tenUtf16ToUtf8 utf16 length)
      (tenUtf16ToUtf8 utf16 length) := by
  rw [Indexed.tenUtf16ToUtf8, tenUtf16ToUtf8]
  by_cases missing : utf16 = none ∧ length > 0
  · rw [if_pos missing, if_pos missing]
    exact mirrors_refuse .nullArgument
  rw [if_neg missing, if_neg missing]
  have counted := length_input missing there
  generalize (utf16.getD []).take length = units at counted
  subst counted
  dsimp only
  rw [countBytes_eq small]
  by_cases spelled : ∃ points, Spells Nat.isValidChar utf16Word points units
  · obtain ⟨points, spells⟩ := spelled
    have few := length_flatMap_le length_utf8Word_le points
    rw [spells.text] at few
    have asked : sizeT ((points.flatMap utf8Word).length + 1) =
        (points.flatMap utf8Word).length + 1 := sizeT_of_lt (by omega)
    have fits : ¬ (points.flatMap utf8Word).length > (points.flatMap utf8Word).length :=
      Nat.lt_irrefl _
    simp only [tenUtf16CountBytes_of_spells spells, tenUtf16WriteBytes_of_spells spells, asked,
      writeBytes_eq small spells, pure_bind, if_neg fits]
    rw [← seenText_map]
    apply Mirrors.afterMalloc
    exact @mirrors_succeed _ _ seenText (FilledUp 0) _ ⟨_, rfl⟩
  · rw [tenUtf16CountBytes_of_not_spells (not_exists.mp spelled)]
    simp only [bind_assoc, pure_bind]
    exact mirrors_refuse .encoding

end ToUtf8

/-! ### All four functions -/

/-- No function leaves its input or its block, whatever the allocator answers; the
encoder and the converters fill their blocks up to the terminator, and the length
that is reported is that of the units in front of it. -/
theorem sizing_passes_match {data : Option Bytes} {size : Nat} (dataSmall : size < 2 ^ 62)
    (dataThere : ∀ bytes, data = some bytes → size ≤ bytes.length) {text utf8 : Option CString}
    (textSmall : ∀ string, text = some string → string.length < 2 ^ 62)
    (utf8Small : ∀ string, utf8 = some string → string.length < 2 ^ 62)
    {utf16 : Option (List UInt16)} {length : Nat} (utf16Small : length < 2 ^ 62)
    (utf16There : ∀ units, utf16 = some units → length ≤ units.length) (grants : Schedule)
    (world : World) :
    Returns (Indexed.tenBase64Encode data size) grants world (fun reply _ =>
        ∀ block, reply = some block → FilledUp 0 block) ∧
      Returns (Indexed.tenBase64Decode text) grants world (fun reply _ =>
        ∀ block count, reply = some (block, count) → FilledTo count block) ∧
      Returns (Indexed.tenUtf8ToUtf16 utf8) grants world (fun reply _ =>
        ∀ block units, reply = some (block, units) →
          FilledUp 0 block ∧ block.length = units + 1) ∧
      Returns (Indexed.tenUtf16ToUtf8 utf16 length) grants world (fun reply _ =>
        ∀ block, reply = some block → FilledUp 0 block) := by
  have encoded := (mirrors_tenBase64Encode dataSmall dataThere).good grants world
  have decoded := (mirrors_tenBase64Decode textSmall).good grants world
  have toUtf16 := (mirrors_tenUtf8ToUtf16 utf8Small).good grants world
  have toUtf8 := (mirrors_tenUtf16ToUtf8 utf16Small utf16There).good grants world
  refine ⟨encoded, ?_, ?_, toUtf8⟩
  · apply decoded.mono
    intro reply after good block count same
    exact good (block, count) same
  · apply toUtf16.mono
    intro reply after good block units same
    exact good (block, units) same

/-- The bytes of `Ma`, the text `QUI=`, a text of one, three and four bytes a
character, and a pair of surrogates. -/
theorem sizing_passes_match_short :
    Returns (Indexed.tenBase64Encode (some (asciiBytes ['M', 'a'])) 2) (fun _ => true) default
        (fun reply _ => ∀ block, reply = some block → FilledUp 0 block) ∧
      Returns (Indexed.tenBase64Decode (some ⟨asciiBytes ['Q', 'U', 'I', '='], by decide⟩))
        (fun _ => true) default (fun reply _ =>
          ∀ block count, reply = some (block, count) → FilledTo count block) ∧
      Returns (Indexed.tenUtf8ToUtf16 (some mixedText)) (fun _ => true) default (fun reply _ =>
        ∀ block units, reply = some (block, units) →
          FilledUp 0 block ∧ block.length = units + 1) ∧
      Returns (Indexed.tenUtf16ToUtf8 (some [0xD83D, 0xDE00]) 2) (fun _ => true) default
        (fun reply _ => ∀ block, reply = some block → FilledUp 0 block) := by
  apply sizing_passes_match
  · decide
  · rintro _ ⟨⟩
    decide
  · rintro _ ⟨⟩
    decide
  · rintro _ ⟨⟩
    decide
  · decide
  · rintro _ ⟨⟩
    decide

end Dotten
