/-
Module: Dotten.Library.Trim
Layer: Library
Purpose: Joining two sequences with one separator between them, after what looks
  like separators has been trimmed from where they meet.  Elements, separator
  and what is trimmed are arbitrary.
Main exports: glue, glue_assoc, joinTrimmed, joinTrimmed_assoc,
  joinTrimmed_of_all, head?_joinTrimmed
-/
import Mathlib.Data.List.DropRight

namespace Dotten.Library

variable {α : Type} {p : α → Bool} {sep : α}

/-- Two sequences with a separator between them, if neither is empty. -/
def glue (sep : α) (left right : List α) : List α :=
  left ++ (if left = [] ∨ right = [] then [] else [sep]) ++ right

/-- The left one without the separators at its end, and the right one without
those at its start. -/
def joinTrimmed (p : α → Bool) (sep : α) (left right : List α) : List α :=
  glue sep (left.rdropWhile p) (right.dropWhile p)

section Glue

variable {left middle right : List α}

@[simp] theorem glue_nil_left : glue sep [] right = right := by
  simp [glue]

@[simp] theorem glue_nil_right : glue sep left [] = left := by
  simp [glue]

theorem glue_of_ne (some : left ≠ []) (some' : right ≠ []) :
    glue sep left right = left ++ sep :: right := by
  simp [glue, some, some']

theorem glue_ne_nil (some : left ≠ []) : glue sep left right ≠ [] := by
  simp [glue, some]

theorem glue_assoc : glue sep (glue sep left middle) right =
    glue sep left (glue sep middle right) := by
  by_cases first : left = []
  · rw [first, glue_nil_left, glue_nil_left]
  by_cases second : middle = []
  · rw [second, glue_nil_right, glue_nil_left]
  by_cases third : right = []
  · rw [third, glue_nil_right, glue_nil_right]
  rw [glue_of_ne (glue_ne_nil first) third, glue_of_ne first second,
    glue_of_ne first (glue_ne_nil second), glue_of_ne second third, List.append_assoc]
  rfl

end Glue

section Trimming

variable {l left right : List α}

theorem rdropWhile_append : (left ++ right).rdropWhile p =
    if right.rdropWhile p = [] then left.rdropWhile p else left ++ right.rdropWhile p := by
  simp only [List.rdropWhile, List.reverse_append, List.dropWhile_append, List.isEmpty_iff,
    List.reverse_eq_nil_iff]
  split_ifs
  · rfl
  · rw [List.reverse_append, List.reverse_reverse]

theorem rdropWhile_cons {x : α} : (x :: l).rdropWhile p =
    if l.rdropWhile p = [] then if p x then [] else [x] else x :: l.rdropWhile p := by
  rw [← List.singleton_append, rdropWhile_append, List.rdropWhile_singleton]
  rfl

/-- What is left after trimming the end is not trimmed away from the start. -/
theorem dropWhile_rdropWhile_eq_nil :
    (l.rdropWhile p).dropWhile p = [] ↔ l.rdropWhile p = [] := by
  constructor
  · intro trimmed
    by_contra some
    exact List.rdropWhile_last_not p l some
      (List.dropWhile_eq_nil_iff.mp trimmed _ (List.getLast_mem some))
  · intro none
    rw [none, List.dropWhile_nil]

/-- The start and the end are trimmed in any order. -/
theorem dropWhile_rdropWhile : (l.rdropWhile p).dropWhile p = (l.dropWhile p).rdropWhile p := by
  induction l with
  | nil => rfl
  | cons x l inductionHypothesis =>
      by_cases trimmed : p x
      · rw [List.dropWhile_cons_of_pos trimmed, ← inductionHypothesis, rdropWhile_cons, if_pos trimmed]
        split_ifs with none
        · rw [none]
        · rw [List.dropWhile_cons_of_pos trimmed]
      · rw [List.dropWhile_cons_of_neg trimmed, rdropWhile_cons, if_neg trimmed]
        split_ifs with none
        · rw [List.dropWhile_cons_of_neg trimmed]
        · rw [List.dropWhile_cons_of_neg trimmed]

/-- Trimming the start of two sequences that are glued. -/
theorem dropWhile_glue : (glue sep (left.rdropWhile p) (right.dropWhile p)).dropWhile p =
    glue sep ((left.rdropWhile p).dropWhile p) (right.dropWhile p) := by
  by_cases first : left.rdropWhile p = []
  · rw [first, List.dropWhile_nil, glue_nil_left, List.dropWhile_idempotent]
  by_cases second : right.dropWhile p = []
  · rw [second, glue_nil_right, glue_nil_right]
  have kept : (left.rdropWhile p).dropWhile p ≠ [] := dropWhile_rdropWhile_eq_nil.not.mpr first
  rw [glue_of_ne first second, glue_of_ne kept second, List.dropWhile_append,
    if_neg (by simpa using kept)]

/-- Trimming their end. -/
theorem rdropWhile_glue : (glue sep (left.rdropWhile p) (right.dropWhile p)).rdropWhile p =
    glue sep (left.rdropWhile p) ((right.dropWhile p).rdropWhile p) := by
  by_cases first : left.rdropWhile p = []
  · rw [first, glue_nil_left, glue_nil_left]
  by_cases second : right.dropWhile p = []
  · rw [second, List.rdropWhile_nil, glue_nil_right, List.rdropWhile_idempotent]
  have kept : (right.dropWhile p).rdropWhile p ≠ [] := by
    rw [← dropWhile_rdropWhile, ne_eq, dropWhile_rdropWhile_eq_nil, List.rdropWhile_eq_nil_iff,
      ← List.dropWhile_eq_nil_iff]
    exact second
  rw [glue_of_ne first second, glue_of_ne first kept, rdropWhile_append, rdropWhile_cons,
    if_neg kept, if_neg (List.cons_ne_nil _ _)]

/-- Joining is associative, whatever is trimmed and whatever the separator is. -/
theorem joinTrimmed_assoc (first second third : List α) :
    joinTrimmed p sep (joinTrimmed p sep first second) third =
      joinTrimmed p sep first (joinTrimmed p sep second third) := by
  rw [joinTrimmed, joinTrimmed, joinTrimmed, joinTrimmed, rdropWhile_glue, dropWhile_glue,
    dropWhile_rdropWhile, glue_assoc]

/-- A left part of nothing but separators is trimmed away. -/
theorem joinTrimmed_of_all (all : ∀ x ∈ left, p x) : joinTrimmed p sep left right =
    right.dropWhile p := by
  rw [joinTrimmed, List.rdropWhile_eq_nil_iff.mpr all, glue_nil_left]

/-- Any other left part is what the joined sequence starts with. -/
theorem head?_joinTrimmed (some : ∃ x ∈ left, ¬ p x) :
    (joinTrimmed p sep left right).head? = left.head? := by
  cases kept : left.rdropWhile p with
  | nil =>
      obtain ⟨x, member, notSeparator⟩ := some
      exact absurd (List.rdropWhile_eq_nil_iff.mp kept x member) notSeparator
  | cons y ys =>
      have starts := List.rdropWhile_prefix p left
      rw [kept] at starts
      obtain ⟨rest, rfl⟩ := starts
      rw [joinTrimmed, kept, glue]
      rfl

end Trimming

end Dotten.Library
