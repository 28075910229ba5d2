/-
Module: Dotten.Library.LastIndex
Layer: Library
Purpose: Searching a sequence for the last element with a property, in one pass
  from the left.  Elements and property are arbitrary.
Main exports: lastIdx?, lastIdx?_append_cons, lastIdx?_of_forall_not,
  lastIdx?_cases
-/
import Mathlib.Data.List.Induction

namespace Dotten.Library

variable {α : Type} {p : α → Bool}

/-- The index of the last element with the property; `i` is the index of the
first element, and `last` what has been found before it. -/
def lastIdxFrom (p : α → Bool) : List α → Nat → Option Nat → Option Nat
  | [], _, last => last
  | x :: rest, i, last => lastIdxFrom p rest (i + 1) (if p x then some i else last)

/-- The index of the last element with the property. -/
def lastIdx? (p : α → Bool) (l : List α) : Option Nat := lastIdxFrom p l 0 none

theorem lastIdxFrom_append (left right : List α) (i : Nat) (last : Option Nat) :
    lastIdxFrom p (left ++ right) i last =
      lastIdxFrom p right (i + left.length) (lastIdxFrom p left i last) := by
  induction left generalizing i last with
  | nil => rfl
  | cons x left inductionHypothesis =>
      rw [List.cons_append, lastIdxFrom, inductionHypothesis, lastIdxFrom, List.length_cons,
        Nat.add_assoc, Nat.add_comm 1]

theorem lastIdxFrom_of_forall_not {l : List α} (none : ∀ x ∈ l, ¬ p x = true) (i : Nat)
    (last : Option Nat) : lastIdxFrom p l i last = last := by
  induction l generalizing i with
  | nil => rfl
  | cons x l inductionHypothesis =>
      obtain ⟨here, later⟩ := List.forall_mem_cons.mp none
      rw [lastIdxFrom, if_neg here, inductionHypothesis later]

theorem lastIdx?_of_forall_not {l : List α} (none : ∀ x ∈ l, ¬ p x = true) :
    lastIdx? p l = .none :=
  lastIdxFrom_of_forall_not none 0 .none

theorem lastIdx?_append_cons (before : List α) {x : α} (here : p x = true) {after : List α}
    (none : ∀ y ∈ after, ¬ p y = true) : lastIdx? p (before ++ x :: after) = some before.length := by
  rw [lastIdx?, lastIdxFrom_append, lastIdxFrom, if_pos here, lastIdxFrom_of_forall_not none,
    Nat.zero_add]

/-- Both answers of the search. -/
theorem lastIdx?_cases (p : α → Bool) (l : List α) :
    ((∀ x ∈ l, ¬ p x = true) ∧ lastIdx? p l = none) ∨
      ∃ before x after, l = before ++ x :: after ∧ p x = true ∧ (∀ y ∈ after, ¬ p y = true) ∧
        lastIdx? p l = some before.length := by
  suffices split : (∀ x ∈ l, ¬ p x = true) ∨
      ∃ before x after, l = before ++ x :: after ∧ p x = true ∧ ∀ y ∈ after, ¬ p y = true by
    rcases split with none | ⟨before, x, after, rfl, here, none⟩
    · exact .inl ⟨none, lastIdx?_of_forall_not none⟩
    · exact .inr ⟨before, x, after, rfl, here, none, lastIdx?_append_cons before here none⟩
  induction l using List.reverseRecOn with
  | nil => exact .inl (by simp)
  | append_singleton l x inductionHypothesis =>
      by_cases here : p x = true
      · exact .inr ⟨l, x, [], rfl, here, by simp⟩
      · rcases inductionHypothesis with none | ⟨before, y, after, rfl, there, none⟩
        · refine .inl fun y member => ?_
          rcases List.mem_append.mp member with earlier | last
          · exact none y earlier
          · rwa [List.mem_singleton.mp last]
        · refine .inr ⟨before, y, after ++ [x], by simp, there, fun z member => ?_⟩
          rcases List.mem_append.mp member with earlier | last
          · exact none z earlier
          · rwa [List.mem_singleton.mp last]

end Dotten.Library
