/-
Module: Dotten.Http.HttpBodies
Layer: Http
Purpose: Replacing the body of a message: the new data or an error and the old
  body, except when the old body has been emptied for data that it has no room
  for.
Imports: Dotten.Http.HttpMessages, Dotten.Containers.TenBufferPieces
Main exports: shownBody, tenHttpBody_spec, Replaced, LosesBody,
  tenHttpSetBody_replaces_iff, tenHttpMessages_setBody_iff
-/
import Dotten.Http.HttpMessages
import Dotten.Containers.TenBufferPieces

namespace Dotten

open Dotten.Library

/-- What can be read of the body of a message: NULL, or the bytes. -/
def shownBody : Option TenBuffer → Option Bytes
  | none => none
  | some body => if body.capacity = 0 then none else some body.contents

/-- The outcome of an atomic replacement: the new data, or a code other than
`TEN_OK` and the old body. -/
def Replaced (before : Option TenBuffer) (data : Option Bytes) (size : Nat) (code : TenErrorCode)
    (after : Option TenBuffer) : Prop :=
  if code = .ok then (shownBody after).getD [] = (data.getD []).take size
  else shownBody after = shownBody before

instance (before : Option TenBuffer) (data : Option Bytes) (size : Nat) (code : TenErrorCode)
    (after : Option TenBuffer) : Decidable (Replaced before data size code after) := by
  unfold Replaced
  infer_instance

/-- The old body holds bytes, its block has no room for the new ones, and the
request for a larger block is refused. -/
def LosesBody (grants : Schedule) (requests : Nat) (body : Option TenBuffer) (data : Option Bytes)
    (size : Nat) : Prop :=
  ∃ old, body = some old ∧ old.contents ≠ [] ∧ data ≠ none ∧ old.capacity < size ∧
    grants requests = false

section Specifications

variable {grants : Schedule} {world : World} {body : Option TenBuffer}

/-- A call that fails and leaves the body alone is atomic. -/
theorem replaced_of_failed {data : Option Bytes} {size : Nat} {code : TenErrorCode}
    (failed : code ≠ .ok) : Replaced body data size code body :=
  (if_neg failed).mpr rfl

theorem shownBody_of_valid {buffer : TenBuffer} (valid : buffer.Valid) :
    (shownBody (some buffer)).getD [] = buffer.contents := by
  rw [shownBody]
  split
  · rename_i noBlock
    have length := valid.length_contents
    have written := valid.written
    have fits := valid.fits
    exact (List.eq_nil_of_length_eq_zero (by omega)).symm
  · rfl

/-- The getter of a body shows it. -/
theorem tenHttpBody_spec (body : Option TenBuffer) :
    Returns (tenHttpBody body) grants world (fun reply _ =>
      reply.1.map (List.take reply.2) = shownBody body) := by
  cases body with
  | none =>
      simp only [tenHttpBody, returns_bind, returns_tenSetError, returns_pure]
      rfl
  | some buffer =>
      simp only [tenHttpBody, returns_bind, returns_tenSetError, returns_tenBufferSize,
        returns_tenBufferData, returns_pure, shownBody]
      split
      · rfl
      · rfl

/-- A write to a buffer that is empty: the data, or the buffer as it was. -/
theorem tenBufferWrite_empty {buffer : TenBuffer} (valid : buffer.Valid)
    (empty : buffer.contents = []) (data : Bytes) (size : Nat) :
    Returns (tenBufferWrite buffer (some data) size) grants world (fun reply _ =>
      (RefusesGrowth grants world.requests buffer size ∧ reply = (.outOfMemory, buffer)) ∨
        (¬ RefusesGrowth grants world.requests buffer size ∧ reply.1 = .ok ∧
          (shownBody (some reply.2)).getD [] = data.take size)) := by
  apply (tenBufferWrite_writeBytes buffer data size).mono
  rintro ⟨code, after⟩ last ⟨written, outcome⟩
  obtain rfl : after = (writeBytes grants (world.requests, buffer) data size).2 :=
    congrArg Prod.snd written
  dsimp only at outcome
  by_cases refused : RefusesGrowth grants world.requests buffer size
  · rw [if_pos refused] at outcome
    left
    rw [outcome, writeBytes_refused refused]
    exact ⟨refused, rfl⟩
  · rw [if_neg refused] at outcome
    right
    refine ⟨refused, outcome, ?_⟩
    rw [shownBody_of_valid (writeBytes_valid valid data size),
      contents_writeBytes valid refused data]
    dsimp only
    rw [empty, List.nil_append]

/-- Emptying a body can be seen exactly when there was something in it. -/
theorem shownBody_clear_eq_iff {old : TenBuffer} (valid : old.Valid) :
    shownBody (some (tenBufferClear old)) = shownBody (some old) ↔ old.contents = [] := by
  rw [shownBody, shownBody, TenBuffer.contents_clear]
  change (if old.capacity = 0 then none else some []) = _ ↔ _
  by_cases noBlock : old.capacity = 0
  · have length := valid.length_contents
    have written := valid.written
    have fits := valid.fits
    rw [if_pos noBlock, if_pos noBlock]
    exact iff_of_true rfl (List.eq_nil_of_length_eq_zero (by omega))
  · rw [if_neg noBlock, if_neg noBlock, Option.some_inj]
    exact eq_comm

/-- Without data the body is emptied, or the call is wrong. -/
theorem tenHttpSetBody_null (body : Option TenBuffer) (size : Nat) :
    Returns (tenHttpSetBody body none size) grants world (fun reply _ =>
      Replaced body none size reply.1 reply.2) := by
  simp only [tenHttpSetBody]
  apply returns_ite
  · intro _
    simp only [returns_bind, returns_tenSetError, returns_pure]
    exact replaced_of_failed (by simp)
  · intro right
    obtain rfl : size = 0 := by
      by_contra positive
      exact right ⟨trivial, Nat.pos_of_ne_zero positive⟩
    have nothing : ¬ (0 > 0) := Nat.lt_irrefl 0
    cases body with
    | none =>
        simp only [tenHttpFreshBody, tenBufferCreate, returns_bind, returns_tenMalloc]
        constructor
        · intro _
          simp only [tenBufferWrite, if_neg nothing, returns_tenSetError, returns_bind, returns_pure]
          rfl
        · intro _
          simp only [returns_pure]
          exact replaced_of_failed (by simp)
    | some old =>
        simp only [tenHttpFreshBody, tenBufferWrite, if_neg nothing, returns_tenSetError,
          returns_bind, returns_pure]
        change (shownBody (some (tenBufferClear old))).getD [] = []
        rw [shownBody]
        split <;> rfl

/-- With data, the body is replaced or kept unless it is lost. -/
theorem tenHttpSetBody_data (valid : ∀ buffer, body = some buffer → buffer.Valid) (data : Bytes)
    (size : Nat) :
    Returns (tenHttpSetBody body (some data) size) grants world (fun reply _ =>
      Replaced body (some data) size reply.1 reply.2 ↔
        ¬ LosesBody grants world.requests body (some data) size) := by
  simp only [tenHttpSetBody]
  rw [if_neg (by simp)]
  cases body with
  | none =>
      have kept : ¬ LosesBody grants world.requests none (some data) size := by
        rintro ⟨_, none, -⟩
        cases none
      simp only [tenHttpFreshBody, tenBufferCreate, returns_bind, returns_tenMalloc]
      constructor
      · intro _
        simp only [returns_tenSetError, returns_pure, returns_bind]
        apply (tenBufferWrite_empty emptyBuffer_valid rfl data size).mono
        rintro reply _ (⟨-, rfl⟩ | ⟨-, ok, replaced⟩)
        · exact iff_of_true rfl kept
        · exact iff_of_true ((if_pos ok).mpr replaced) kept
      · intro _
        simp only [returns_pure]
        exact iff_of_true (replaced_of_failed (by simp)) kept
  | some old =>
      have validOld := valid old rfl
      simp only [tenHttpFreshBody, returns_bind, returns_pure]
      apply (tenBufferWrite_empty validOld.clear TenBuffer.contents_clear data size).mono
      rintro reply _ (⟨refused, rfl⟩ | ⟨granted, ok, replaced⟩)
      · obtain ⟨-, tight, answer⟩ := refused
        have fits : old.capacity < size := by
          change old.capacity < 0 + size at tight
          omega
        have failed : ¬ TenErrorCode.outOfMemory = .ok := by decide
        rw [Replaced, if_neg failed, shownBody_clear_eq_iff validOld]
        constructor
        · rintro empty ⟨_, same, bytes, -⟩
          cases same
          exact bytes empty
        · intro kept
          by_contra bytes
          exact kept ⟨old, rfl, bytes, by simp, fits, answer⟩
      · refine iff_of_true ((if_pos ok).mpr replaced) ?_
        rintro ⟨_, same, -, -, tight, answer⟩
        cases same
        apply granted
        refine ⟨by omega, ?_, answer⟩
        change old.capacity < 0 + size
        omega

/-- The replacement is atomic exactly when the body is not lost. -/
theorem tenHttpSetBody_replaces_iff (valid : ∀ buffer, body = some buffer → buffer.Valid)
    (data : Option Bytes) (size : Nat) :
    Returns (tenHttpSetBody body data size) grants world (fun reply _ =>
      Replaced body data size reply.1 reply.2) ↔
      ¬ LosesBody grants world.requests body data size := by
  cases data with
  | none =>
      refine iff_of_true (tenHttpSetBody_null body size) ?_
      rintro ⟨_, -, -, given, -⟩
      exact given rfl
  | some data => exact returns_iff_of_iff (tenHttpSetBody_data valid data size)

end Specifications

/-- The body of a request, and of a response, is replaced by the new data or
kept exactly when it is not lost. -/
theorem tenHttpMessages_setBody_iff (request : TenHttpRequest) (response : TenHttpResponse)
    (validRequest : ∀ buffer, request.body = some buffer → buffer.Valid)
    (validResponse : ∀ buffer, response.body = some buffer → buffer.Valid)
    (data : Option Bytes) (size : Nat) (grants : Schedule) (world : World) :
    (Returns (tenHttpRequestSetBody request data size) grants world (fun reply _ =>
      Replaced request.body data size reply.1 reply.2.body) ↔
      ¬ LosesBody grants world.requests request.body data size) ∧
    (Returns (tenHttpResponseSetBody response data size) grants world (fun reply _ =>
      Replaced response.body data size reply.1 reply.2.body) ↔
      ¬ LosesBody grants world.requests response.body data size) := by
  constructor
  · simp only [tenHttpRequestSetBody, returns_bind, returns_pure]
    exact tenHttpSetBody_replaces_iff validRequest data size
  · simp only [tenHttpResponseSetBody, returns_bind, returns_pure]
    exact tenHttpSetBody_replaces_iff validResponse data size

section Examples

/-- A body of five bytes in the block that the first write has asked for. -/
def helloBody : TenBuffer := { data := literal "hello", size := 5, capacity := 16 }

theorem helloBody_valid : helloBody.Valid := by
  constructor <;> decide

/-- Eight bytes fit the block of the old body. -/
theorem tenHttpMessages_setBody_new :
    Returns (tenHttpResponseSetBody { status := 200, headers := .none, body := some helloBody }
      (some (literal "replaced")) 8) (fun _ => false) ⟨3, .ok, 0⟩ (fun reply _ =>
        Replaced (some helloBody) (some (literal "replaced")) 8 reply.1 reply.2.body) := by
  apply ((tenHttpMessages_setBody_iff { method := .get, path := none, headers := .none, body := none }
    { status := 200, headers := .none, body := some helloBody } (by simp) ?_ _ _ _ _).2).mpr
  · rintro ⟨old, same, -, -, tight, -⟩
    cases same
    exact absurd tight (by decide)
  · rintro buffer same
    cases same
    exact helloBody_valid

/-- Seventeen bytes do not fit the block of the old body, and it is gone. -/
theorem tenHttpResponseSetBody_loses_hello :
    ¬ Returns (tenHttpResponseSetBody { status := 200, headers := .none, body := some helloBody }
      (some (literal "seventeen letters")) 17) (fun _ => false) ⟨3, .ok, 0⟩ (fun reply _ =>
        Replaced (some helloBody) (some (literal "seventeen letters")) 17 reply.1
          reply.2.body) := by
  intro returns
  have replaced := returns.eq rfl
  exact absurd replaced (by decide)

end Examples

end Dotten
