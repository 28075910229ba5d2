/-
Module: Dotten.Library.LossyWriter
Layer: Library
Purpose: A text that is written piece by piece by a writer which may leave a
  piece out without saying so: the text is whole exactly when no piece has been
  left out.  Nothing here is specific to one writer.
Main exports: LossyWriter, LosesSome, puts_good, text_puts, length_text_puts_lt,
  text_puts_eq_iff
-/
import Mathlib.Tactic.Common
import Mathlib.Data.List.Basic

namespace Dotten.Library

/-- A writer: its states, what a piece does to them, and when a piece is lost.
`Good` is what the representation of a state keeps, `Fit` what a piece must be
like to be written at all. -/
structure LossyWriter (σ β : Type) where
  put : σ → List β → σ
  text : σ → List β
  Good : σ → Prop
  Fit : List β → Prop
  Lost : σ → List β → Prop
  good : ∀ {state : σ} {piece : List β}, Good state → Fit piece → Good (put state piece)
  written : ∀ {state : σ} {piece : List β}, Good state → Fit piece → ¬ Lost state piece →
    text (put state piece) = text state ++ piece
  lost : ∀ {state : σ} {piece : List β}, Good state → Fit piece → Lost state piece →
    piece ≠ [] ∧ text (put state piece) = text state

namespace LossyWriter

variable {σ β : Type} (writer : LossyWriter σ β)

/-- The state after several pieces. -/
def puts (state : σ) (pieces : List (List β)) : σ := pieces.foldl writer.put state

/-- A piece is left out on the way. -/
def LosesSome : σ → List (List β) → Prop
  | _, [] => False
  | state, piece :: pieces => writer.Lost state piece ∨ LosesSome (writer.put state piece) pieces

@[simp] theorem puts_nil (state : σ) : writer.puts state [] = state := rfl

@[simp] theorem puts_cons (state : σ) (piece : List β) (pieces : List (List β)) :
    writer.puts state (piece :: pieces) = writer.puts (writer.put state piece) pieces := rfl

theorem puts_append (state : σ) (first second : List (List β)) :
    writer.puts state (first ++ second) = writer.puts (writer.puts state first) second :=
  List.foldl_append

variable {writer} {pieces : List (List β)} (fit : ∀ piece ∈ pieces, writer.Fit piece)

include fit

/-- Whatever is left out, the state stays in good order. -/
theorem puts_good : ∀ {state : σ}, writer.Good state → writer.Good (writer.puts state pieces) := by
  induction pieces with
  | nil =>
      intro state good
      exact good
  | cons piece pieces inductionHypothesis =>
      intro state good
      rw [List.forall_mem_cons] at fit
      exact inductionHypothesis fit.2 (writer.good good fit.1)

/-- Pieces of which none is left out are written. -/
theorem text_puts :
    ∀ {state : σ}, writer.Good state → ¬ writer.LosesSome state pieces →
      writer.text (writer.puts state pieces) = writer.text state ++ pieces.flatten := by
  induction pieces with
  | nil =>
      intro state _ _
      exact (List.append_nil _).symm
  | cons piece pieces inductionHypothesis =>
      intro state good kept
      rw [List.forall_mem_cons] at fit
      rw [LosesSome, not_or] at kept
      rw [puts_cons, inductionHypothesis fit.2 (writer.good good fit.1) kept.2,
        writer.written good fit.1 kept.1, List.flatten_cons, List.append_assoc]

/-- At most all pieces are written. -/
theorem length_text_puts_le :
    ∀ {state : σ}, writer.Good state →
      (writer.text (writer.puts state pieces)).length ≤
        (writer.text state).length + pieces.flatten.length := by
  induction pieces with
  | nil =>
      intro state _
      exact Nat.le_add_right _ _
  | cons piece pieces inductionHypothesis =>
      intro state good
      rw [List.forall_mem_cons] at fit
      have rest := inductionHypothesis fit.2 (writer.good good fit.1)
      rw [puts_cons, List.flatten_cons, List.length_append]
      by_cases lost : writer.Lost state piece
      · rw [(writer.lost good fit.1 lost).2] at rest
        omega
      · rw [writer.written good fit.1 lost, List.length_append] at rest
        omega

/-- A piece that is left out is missing in the end. -/
theorem length_text_puts_lt :
    ∀ {state : σ}, writer.Good state → writer.LosesSome state pieces →
      (writer.text (writer.puts state pieces)).length <
        (writer.text state).length + pieces.flatten.length := by
  induction pieces with
  | nil =>
      intro state _ lost
      exact lost.elim
  | cons piece pieces inductionHypothesis =>
      intro state good lost
      rw [List.forall_mem_cons] at fit
      have goodNext := writer.good good fit.1
      rw [puts_cons, List.flatten_cons, List.length_append]
      by_cases here : writer.Lost state piece
      · obtain ⟨nonempty, same⟩ := writer.lost good fit.1 here
        have rest := length_text_puts_le fit.2 goodNext
        have positive := List.length_pos_iff.mpr nonempty
        rw [same] at rest
        omega
      · have rest := inductionHypothesis fit.2 goodNext (lost.resolve_left here)
        rw [writer.written good fit.1 here, List.length_append] at rest
        omega

/-- The text is whole exactly when no piece is left out. -/
theorem text_puts_eq_iff {state : σ} (good : writer.Good state) :
    writer.text (writer.puts state pieces) = writer.text state ++ pieces.flatten ↔
      ¬ writer.LosesSome state pieces := by
  constructor
  · intro whole lost
    have shorter := length_text_puts_lt fit good lost
    rw [whole, List.length_append] at shorter
    exact Nat.lt_irrefl _ shorter
  · exact text_puts fit good

end LossyWriter

end Dotten.Library
