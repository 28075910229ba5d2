/-
Module: Dotten.Containers.TenStringPieces
Layer: Containers
Purpose: A string that is built by appending pieces to it without looking at
  the return codes: a piece that finds no room is left out.
Imports: Dotten.Containers.TenString, Dotten.Library.LossyWriter
Main exports: appendPieces, putPiece, GrowthRefused, appendPieces_putPiece,
  putPiece_cases, stringWriter, putPieces_valid, putPieces_of_granted, length_putPieces_lt,
  growthRefused_of_full, not_growthRefused_of_ample, not_growthRefused_of_room
-/
import Dotten.Containers.TenString
import Dotten.Library.LossyWriter

namespace Dotten

open Dotten.Library

/-- Appends whose return codes are ignored. -/
def appendPieces (string : TenString) : List CString → Ten TenString
  | [] => return string
  | piece :: pieces => do
      let (_, string) ← tenStringAppend string piece
      appendPieces string pieces

section Appending

variable {grants : Schedule}

/-- The requests made and the output after an append whose result is not looked
at: a piece that does not fit is left out when the block cannot be enlarged. -/
def putPiece (grants : Schedule) (state : Nat × TenString) (piece : Bytes) : Nat × TenString :=
  let text := CString.ofMemory (piece ++ [0])
  let newLen := state.2.length + text.length
  let data := state.2.data.take state.2.length ++ text.bytes ++ [0]
  if newLen + 1 > state.2.capacity then
    if grants state.1 then
      let first :=
        if state.2.capacity = 0 then tenStringInitialCapacity else state.2.capacity * 2
      (state.1 + 1,
        { addr := state.1, data, length := newLen
          capacity := doubleUntil (newLen + 1) (newLen + 1) first })
    else (state.1 + 1, state.2)
  else (state.1, { state.2 with data, length := newLen })

/-- A piece does not fit, and the block is not enlarged. -/
def PieceRefused (grants : Schedule) (state : Nat × TenString) (piece : Bytes) : Prop :=
  state.2.capacity < state.2.length + piece.length + 1 ∧ grants state.1 = false

theorem tenStringAppend_putPiece (out : TenString) (text : CString) {world : World} :
    Returns (tenStringAppend out text) grants world (fun reply last =>
      (last.requests, reply.2) = putPiece grants (world.requests, out) text.bytes) := by
  have same : CString.ofMemory (text.bytes ++ [0]) = text := CString.ofMemory_append_nul text []
  unfold tenStringAppend putPiece
  rw [same]
  dsimp only
  by_cases grows : out.length + text.length + 1 > out.capacity
  · simp only [if_pos grows, returns_bind, returns_tenRealloc, returns_tenMalloc]
    constructor
    · intro granted
      simp only [returns_tenSetError, returns_pure]
      rw [if_pos granted]
      rfl
    · intro refused
      rw [returns_pure, refused]
      rfl
  · simp only [if_neg grows, returns_bind, returns_tenSetError, returns_pure]

/-- A piece is appended to a string in good order, or left out. -/
theorem putPiece_cases {state : Nat × TenString} (valid : state.2.Valid) {piece : Bytes}
    (noNul : (0 : Byte) ∉ piece) :
    (¬ PieceRefused grants state piece ∧ (putPiece grants state piece).2.Valid ∧
      (putPiece grants state piece).2.cstr.bytes = state.2.cstr.bytes ++ piece) ∨
    (PieceRefused grants state piece ∧ piece ≠ [] ∧ (putPiece grants state piece).2 = state.2) := by
  have text : CString.ofMemory (piece ++ [0]) = ⟨piece, noNul⟩ :=
    CString.ofMemory_append_nul ⟨piece, noNul⟩ []
  have old : state.2.data.take state.2.length = state.2.cstr.bytes := by
    rw [valid.data_eq, valid.length_eq, CString.length, List.take_left]
  have appended : ∀ {after : TenString},
      after.data = state.2.data.take state.2.length ++ piece ++ [0] →
      after.length = state.2.length + piece.length → after.length < after.capacity →
      after.Valid ∧ after.cstr.bytes = state.2.cstr.bytes ++ piece := by
    intro after data length fits
    rw [old] at data
    have content : after.cstr = state.2.cstr.append ⟨piece, noNul⟩ := TenString.cstr_of_data data
    refine ⟨TenString.valid_of_data (c := state.2.cstr.append ⟨piece, noNul⟩) data ?_ fits, ?_⟩
    · rw [length, valid.length_eq]
      simp [CString.length]
    · rw [content]
      rfl
  have fits := valid.fits
  unfold putPiece PieceRefused
  rw [text]
  dsimp only [CString.length]
  by_cases grows : state.2.length + piece.length + 1 > state.2.capacity
  · rw [if_pos grows]
    cases granted : grants state.1 with
    | true =>
        refine .inl ⟨by simp, appended rfl rfl ?_⟩
        have positive : 0 < if state.2.capacity = 0 then tenStringInitialCapacity
            else state.2.capacity * 2 := by
          split
          · decide
          · omega
        exact doubleUntil_ge (state.2.length + piece.length + 1) _ _ positive (by omega)
    | false =>
        refine .inr ⟨⟨grows, rfl⟩, ?_, rfl⟩
        rintro rfl
        simp only [List.length_nil] at grows
        omega
  · rw [if_neg grows]
    exact .inl ⟨fun refused => grows refused.1,
      appended rfl rfl (by change state.2.length + piece.length < state.2.capacity; omega)⟩

/-- A string as a writer that leaves out what it finds no room for. -/
def stringWriter (grants : Schedule) : LossyWriter (Nat × TenString) Byte where
  put := putPiece grants
  text state := state.2.cstr.bytes
  Good state := state.2.Valid
  Fit piece := (0 : Byte) ∉ piece
  Lost := PieceRefused grants
  good valid noNul := by
    obtain ⟨-, validNext, -⟩ | ⟨-, -, same⟩ := putPiece_cases valid noNul
    · exact validNext
    · rw [same]
      exact valid
  written valid noNul granted := by
    obtain ⟨-, -, bytes⟩ | ⟨refused, -⟩ := putPiece_cases valid noNul
    · exact bytes
    · exact absurd refused granted
  lost valid noNul refused := by
    obtain ⟨granted, -⟩ | ⟨-, nonempty, same⟩ := putPiece_cases valid noNul
    · exact absurd refused granted
    · exact ⟨nonempty, by rw [same]⟩

/-- A piece is left out on the way. -/
def GrowthRefused (grants : Schedule) : Nat × TenString → List Bytes → Prop
  | _, [] => False
  | state, piece :: pieces =>
      PieceRefused grants state piece ∨ GrowthRefused grants (putPiece grants state piece) pieces

theorem growthRefused_iff_losesSome (pieces : List Bytes) :
    ∀ state, GrowthRefused grants state pieces ↔ (stringWriter grants).LosesSome state pieces := by
  induction pieces with
  | nil =>
      intro state
      exact Iff.rfl
  | cons piece pieces inductionHypothesis =>
      intro state
      exact or_congr Iff.rfl (inductionHypothesis _)

theorem not_growthRefused_of_ample (ample : Ample grants) (pieces : List Bytes) :
    ∀ state, ¬ GrowthRefused grants state pieces := by
  induction pieces with
  | nil =>
      intro state refused
      exact refused
  | cons piece pieces inductionHypothesis =>
      rintro state (here | later)
      · exact not_ample_of_refused here.2 ample
      · exact inductionHypothesis _ later

section Pieces

variable {pieces : List Bytes} (noNul : ∀ piece ∈ pieces, (0 : Byte) ∉ piece)
  {state : Nat × TenString} (valid : state.2.Valid)

include noNul valid

/-- Whatever is left out, the string stays in good order. -/
theorem putPieces_valid : (pieces.foldl (putPiece grants) state).2.Valid :=
  @LossyWriter.puts_good _ _ (stringWriter grants) _ noNul _ valid

/-- Pieces of which none is left out are appended. -/
theorem putPieces_of_granted (granted : ¬ GrowthRefused grants state pieces) :
    (pieces.foldl (putPiece grants) state).2.Valid ∧
      (pieces.foldl (putPiece grants) state).2.cstr.bytes =
        state.2.cstr.bytes ++ pieces.flatten := by
  rw [growthRefused_iff_losesSome] at granted
  exact ⟨putPieces_valid noNul valid, LossyWriter.text_puts noNul valid granted⟩

/-- A piece that is left out is missing in the end. -/
theorem length_putPieces_lt (refused : GrowthRefused grants state pieces) :
    (pieces.foldl (putPiece grants) state).2.cstr.bytes.length <
      state.2.cstr.bytes.length + pieces.flatten.length := by
  rw [growthRefused_iff_losesSome] at refused
  exact LossyWriter.length_text_puts_lt noNul valid refused

end Pieces

theorem requests_le_putPiece (state : Nat × TenString) (piece : Bytes) :
    state.1 ≤ (putPiece grants state piece).1 := by
  unfold putPiece
  dsimp only
  split
  · split
    · exact Nat.le_succ _
    · exact Nat.le_succ _
  · exact Nat.le_refl _

theorem requests_le_putPieces (pieces : List Bytes) :
    ∀ state : Nat × TenString, state.1 ≤ (pieces.foldl (putPiece grants) state).1 := by
  induction pieces with
  | nil =>
      intro state
      exact Nat.le_refl _
  | cons piece pieces inductionHypothesis =>
      intro state
      exact Nat.le_trans (requests_le_putPiece state piece) (inductionHypothesis _)

/-- Pieces that do not fit the block make a request, and when it is refused one of
them is left out. -/
theorem growthRefused_of_full {pieces : List Bytes}
    (noNul : ∀ piece ∈ pieces, (0 : Byte) ∉ piece) :
    ∀ {state : Nat × TenString}, state.2.length < state.2.capacity →
      state.2.capacity ≤ state.2.length + pieces.flatten.length → grants state.1 = false →
      GrowthRefused grants state pieces ∧
        state.1 < (pieces.foldl (putPiece grants) state).1 := by
  induction pieces with
  | nil =>
      intro state room full
      exact absurd full (Nat.not_le.mpr room)
  | cons piece pieces inductionHypothesis =>
      intro state room full refused
      have text : CString.ofMemory (piece ++ [0]) = ⟨piece, noNul piece List.mem_cons_self⟩ :=
        CString.ofMemory_append_nul ⟨piece, noNul piece List.mem_cons_self⟩ []
      rw [List.flatten_cons, List.length_append] at full
      rw [List.foldl_cons]
      by_cases grows : state.2.length + piece.length + 1 > state.2.capacity
      · have next : putPiece grants state piece = (state.1 + 1, state.2) := by
          unfold putPiece
          rw [text]
          dsimp only [CString.length]
          rw [if_pos grows, refused]
          rfl
        rw [GrowthRefused, next]
        have later := @requests_le_putPieces grants pieces (state.1 + 1, state.2)
        exact ⟨.inl ⟨grows, refused⟩, later⟩
      · let after : TenString := { state.2 with
          data := state.2.data.take state.2.length ++ piece ++ [0]
          length := state.2.length + piece.length }
        have next : putPiece grants state piece = (state.1, after) := by
          unfold putPiece
          rw [text]
          dsimp only [CString.length]
          rw [if_neg grows]
        rw [GrowthRefused, next]
        have rest := @inductionHypothesis
          (fun other member => noNul other (List.mem_cons_of_mem piece member)) (state.1, after)
          (show state.2.length + piece.length < state.2.capacity by omega)
          (show state.2.capacity ≤ state.2.length + piece.length + pieces.flatten.length by omega)
          refused
        exact ⟨.inr rest.1, rest.2⟩

/-- Pieces that fit the block need no request. -/
theorem not_growthRefused_of_room {pieces : List Bytes}
    (noNul : ∀ piece ∈ pieces, (0 : Byte) ∉ piece) :
    ∀ {state : Nat × TenString}, state.2.length + pieces.flatten.length < state.2.capacity →
      ¬ GrowthRefused grants state pieces := by
  induction pieces with
  | nil =>
      intro state _ refused
      exact refused
  | cons piece pieces inductionHypothesis =>
      intro state room
      have text : CString.ofMemory (piece ++ [0]) = ⟨piece, noNul piece List.mem_cons_self⟩ :=
        CString.ofMemory_append_nul ⟨piece, noNul piece List.mem_cons_self⟩ []
      rw [List.flatten_cons, List.length_append] at room
      rintro (here | later)
      · have fits := here.1
        omega
      · refine inductionHypothesis
          (fun other member => noNul other (List.mem_cons_of_mem piece member)) ?_ later
        unfold putPiece
        rw [text]
        dsimp only [CString.length]
        rw [if_neg (by omega)]
        dsimp only
        omega

theorem appendPieces_putPiece (pieces : List CString) :
    ∀ {out : TenString} {world : World},
      Returns (appendPieces out pieces) grants world (fun after last =>
        (last.requests, after) =
          (pieces.map CString.bytes).foldl (putPiece grants) (world.requests, out)) := by
  induction pieces with
  | nil =>
      intro out world
      rw [appendPieces, returns_pure]
      rfl
  | cons piece pieces inductionHypothesis =>
      intro out world
      rw [appendPieces, returns_bind]
      apply (tenStringAppend_putPiece out piece).mono
      rintro ⟨code, next⟩ between put
      apply inductionHypothesis.mono
      intro after last rest
      rw [rest, List.map_cons, List.foldl_cons, ← put]

end Appending

end Dotten
