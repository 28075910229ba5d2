/-
Module: Dotten.Containers.TenBufferPieces
Layer: Containers
Purpose: What a write to a buffer does under a given schedule, and a buffer
  that is filled piece by piece without looking at the return codes.
Imports: Dotten.Containers.TenBuffer, Dotten.Library.LossyWriter
Main exports: RefusesGrowth, writeBytes, bufferWriter,
  tenBufferWrite_writeBytes, growthsNeeded, losesSome_iff
-/
import Dotten.Containers.TenBuffer
import Dotten.Library.LossyWriter

namespace Dotten

open Dotten.Library

/-- A write of `size` bytes asks for a larger block, and the request of the
given number, its only one, is refused. -/
def RefusesGrowth (grants : Schedule) (requests : Nat) (buffer : TenBuffer) (size : Nat) : Prop :=
  0 < size ∧ buffer.capacity < buffer.size + size ∧ grants requests = false

instance (grants : Schedule) (requests : Nat) (buffer : TenBuffer) (size : Nat) :
    Decidable (RefusesGrowth grants requests buffer size) := by
  unfold RefusesGrowth
  infer_instance

/-- The requests made and the buffer after a write of `size` bytes of `data`. -/
def writeBytes (grants : Schedule) (state : Nat × TenBuffer) (data : Bytes) (size : Nat) :
    Nat × TenBuffer :=
  if size = 0 then state
  else if state.2.size + size > state.2.capacity then
    if grants state.1 then
      let first :=
        if state.2.capacity = 0 then tenBufferInitialCapacity else state.2.capacity * 2
      let newCapacity := doubleUntil (state.2.size + size) (state.2.size + size) first
      (state.1 + 1, { state.2 with capacity := newCapacity }.put (data.take size))
    else (state.1 + 1, state.2)
  else (state.1, state.2.put (data.take size))

section Writing

variable {grants : Schedule}

/-- No more than the bytes that are written is read. -/
theorem writeBytes_congr {data other : Bytes} {size : Nat} (same : data.take size = other.take size)
    (state : Nat × TenBuffer) :
    writeBytes grants state data size = writeBytes grants state other size := by
  unfold writeBytes
  rw [same]

/-- `ten_buffer_write` fails exactly when it is refused a larger block. -/
theorem tenBufferWrite_writeBytes (buffer : TenBuffer) (data : Bytes) (size : Nat)
    {world : World} :
    Returns (tenBufferWrite buffer (some data) size) grants world (fun reply last =>
      (last.requests, reply.2) = writeBytes grants (world.requests, buffer) data size ∧
        reply.1 = if RefusesGrowth grants world.requests buffer size then .outOfMemory else .ok) := by
  simp only [tenBufferWrite]
  unfold writeBytes
  dsimp only
  by_cases empty : size = 0
  · have kept : ¬ RefusesGrowth grants world.requests buffer size := by
      rintro ⟨positive, -⟩
      omega
    rw [if_pos empty, if_pos empty, if_neg kept]
    simp only [returns_bind, returns_tenSetError, returns_pure]
    exact ⟨trivial, trivial⟩
  · rw [if_neg empty, if_neg empty]
    by_cases grows : buffer.size + size > buffer.capacity
    · rw [if_pos grows, if_pos grows]
      simp only [returns_bind, returns_tenRealloc, returns_tenMalloc]
      constructor
      · intro granted
        have kept : ¬ RefusesGrowth grants world.requests buffer size := by
          rintro ⟨-, -, refused⟩
          rw [granted] at refused
          cases refused
        simp only [returns_tenSetError, returns_pure]
        rw [if_pos granted, if_neg kept]
        exact ⟨rfl, rfl⟩
      · intro refused
        have fails : RefusesGrowth grants world.requests buffer size :=
          ⟨Nat.pos_of_ne_zero empty, grows, refused⟩
        rw [returns_pure, if_neg (by simp [refused]), if_pos fails]
        exact ⟨rfl, rfl⟩
    · have kept : ¬ RefusesGrowth grants world.requests buffer size := by
        rintro ⟨-, tight, -⟩
        exact grows tight
      rw [if_neg grows, if_neg grows, if_neg kept]
      simp only [returns_bind, returns_tenSetError, returns_pure]
      exact ⟨trivial, trivial⟩

variable {state : Nat × TenBuffer}

theorem writeBytes_refused {size : Nat} (refused : RefusesGrowth grants state.1 state.2 size)
    (data : Bytes) : (writeBytes grants state data size).2 = state.2 := by
  obtain ⟨positive, grows, answer⟩ := refused
  unfold writeBytes
  rw [if_neg (by omega), if_pos grows, if_neg (by simp [answer])]

theorem writeBytes_valid (valid : state.2.Valid) (data : Bytes) (size : Nat) :
    (writeBytes grants state data size).2.Valid := by
  have written := valid.written
  have fits := valid.fits
  have short : (data.take size).length ≤ size := List.length_take_le size data
  unfold writeBytes
  split
  · exact valid
  · split
    · split
      · have start : 0 < if state.2.capacity = 0 then tenBufferInitialCapacity
            else state.2.capacity * 2 := by
          split
          · decide
          · omega
        have room := doubleUntil_ge (state.2.size + size) (state.2.size + size) _ start (by omega)
        exact valid.put (by omega) (by omega)
      · exact valid
    · have room : state.2.size + (data.take size).length ≤ state.2.capacity := by omega
      exact valid.put (Nat.le_refl _) room

theorem contents_writeBytes (valid : state.2.Valid) {size : Nat}
    (granted : ¬ RefusesGrowth grants state.1 state.2 size) (data : Bytes) :
    (writeBytes grants state data size).2.contents = state.2.contents ++ data.take size := by
  unfold writeBytes
  split
  · rename_i empty
    rw [empty, List.take_zero, List.append_nil]
  · rename_i nonempty
    split
    · rename_i grows
      split
      · exact valid.contents_put _ _
      · rename_i refused
        exact absurd ⟨Nat.pos_of_ne_zero nonempty, grows, Bool.eq_false_iff.mpr refused⟩
          granted
    · exact valid.contents_put _ _

/-- A buffer as a writer that leaves out what it finds no room for. -/
def bufferWriter (grants : Schedule) : LossyWriter (Nat × TenBuffer) Byte where
  put state piece := writeBytes grants state piece piece.length
  text state := state.2.contents
  Good state := state.2.Valid
  Fit _ := True
  Lost state piece := RefusesGrowth grants state.1 state.2 piece.length
  good valid _ := writeBytes_valid valid _ _
  written valid _ granted := by
    rw [contents_writeBytes valid granted, List.take_length]
  lost _ _ refused := by
    refine ⟨?_, ?_⟩
    · rintro rfl
      exact Nat.lt_irrefl _ refused.1
    · rw [writeBytes_refused refused]

/-- The number of larger blocks that writes of the given sizes ask for when no
request is refused. -/
def growthsNeeded : Nat → Nat → List Nat → Nat
  | _, _, [] => 0
  | size, capacity, n :: sizes =>
      if 0 < n ∧ capacity < size + n then
        let first := if capacity = 0 then tenBufferInitialCapacity else capacity * 2
        growthsNeeded (size + n) (doubleUntil (size + n) (size + n) first) sizes + 1
      else growthsNeeded (size + n) capacity sizes

theorem writeBytes_of_room {piece : Bytes}
    (room : ¬ (0 < piece.length ∧ state.2.capacity < state.2.size + piece.length)) :
    (writeBytes grants state piece piece.length).1 = state.1 ∧
      (writeBytes grants state piece piece.length).2.size = state.2.size + piece.length ∧
      (writeBytes grants state piece piece.length).2.capacity = state.2.capacity := by
  unfold writeBytes
  by_cases empty : piece.length = 0
  · rw [if_pos empty, empty]
    exact ⟨rfl, rfl, rfl⟩
  · rw [if_neg empty, if_neg (fun grows => room ⟨Nat.pos_of_ne_zero empty, grows⟩),
      List.take_length]
    exact ⟨rfl, rfl, rfl⟩

theorem writeBytes_of_granted {piece : Bytes} (nonempty : 0 < piece.length)
    (grows : state.2.capacity < state.2.size + piece.length) (granted : grants state.1 = true) :
    (writeBytes grants state piece piece.length).1 = state.1 + 1 ∧
      (writeBytes grants state piece piece.length).2.size = state.2.size + piece.length ∧
      (writeBytes grants state piece piece.length).2.capacity =
        doubleUntil (state.2.size + piece.length) (state.2.size + piece.length)
          (if state.2.capacity = 0 then tenBufferInitialCapacity else state.2.capacity * 2) := by
  unfold writeBytes
  rw [if_neg (Nat.ne_of_gt nonempty), if_pos grows, if_pos granted, List.take_length]
  exact ⟨rfl, rfl, rfl⟩

/-- A piece is left out exactly when one of the requests is refused that are made
when none is. -/
theorem losesSome_iff (pieces : List Bytes) :
    ∀ state : Nat × TenBuffer, (bufferWriter grants).LosesSome state pieces ↔
      ∃ k < growthsNeeded state.2.size state.2.capacity (pieces.map List.length),
        grants (state.1 + k) = false := by
  induction pieces with
  | nil =>
      intro state
      refine iff_of_false (fun lost => lost) ?_
      rintro ⟨k, below, -⟩
      exact absurd below (Nat.not_lt_zero k)
  | cons piece pieces inductionHypothesis =>
      intro state
      rw [LossyWriter.LosesSome, inductionHypothesis, List.map_cons, growthsNeeded]
      change RefusesGrowth grants state.1 state.2 piece.length ∨
        (∃ k < growthsNeeded (writeBytes grants state piece piece.length).2.size
          (writeBytes grants state piece piece.length).2.capacity (pieces.map List.length),
          grants ((writeBytes grants state piece piece.length).1 + k) = false) ↔ _
      by_cases grows : 0 < piece.length ∧ state.2.capacity < state.2.size + piece.length
      · rw [if_pos grows]
        cases answer : grants state.1 with
        | false =>
            exact iff_of_true (.inl ⟨grows.1, grows.2, answer⟩) ⟨0, Nat.succ_pos _, answer⟩
        | true =>
            obtain ⟨requests, size, capacity⟩ := writeBytes_of_granted grows.1 grows.2 answer
            rw [requests, size, capacity]
            constructor
            · rintro (⟨-, -, refused⟩ | ⟨k, below, refused⟩)
              · rw [answer] at refused
                cases refused
              · refine ⟨k + 1, Nat.succ_lt_succ below, ?_⟩
                rw [Nat.add_comm k, ← Nat.add_assoc]
                exact refused
            · rintro ⟨k, below, refused⟩
              cases k with
              | zero =>
                  rw [Nat.add_zero, answer] at refused
                  cases refused
              | succ k =>
                  refine .inr ⟨k, Nat.lt_of_succ_lt_succ below, ?_⟩
                  rw [Nat.add_assoc, Nat.add_comm 1]
                  exact refused
      · obtain ⟨requests, size, capacity⟩ := @writeBytes_of_room grants state piece grows
        rw [if_neg grows, requests, size, capacity]
        constructor
        · rintro (⟨positive, tight, -⟩ | later)
          · exact absurd ⟨positive, tight⟩ grows
          · exact later
        · exact .inr

end Writing

end Dotten
