/-
Module: Dotten.Library.Backwards
Layer: Library
Purpose: Lists that hold some items of another list the other way round: one that
  is met later there comes first here.
Main exports: pairwise_iff_split, eq_reverse_iff_pairwise, eq_of_palindrome,
  eq_of_map_eq
-/
import Mathlib.Data.List.Basic
import Mathlib.Data.List.Nodup

namespace Dotten.Library

variable {α β : Type}

/-- A relation holds between the items of a list when it holds between each item and
those before it. -/
theorem pairwise_iff_split {r : α → α → Prop} {items : List α} :
    items.Pairwise r ↔ ∀ before item after, items = before ++ item :: after →
      ∀ other ∈ before, r other item := by
  constructor
  · rintro pairwise before item after rfl other member
    exact (List.pairwise_append.mp pairwise).2.2 other member item List.mem_cons_self
  · induction items with
    | nil => exact fun _ => .nil
    | cons first rest inductionHypothesis =>
        intro each
        rw [List.pairwise_cons]
        constructor
        · intro item member
          obtain ⟨before, after, rfl⟩ := List.append_of_mem member
          exact each (first :: before) item after rfl first List.mem_cons_self
        · apply inductionHypothesis
          rintro before item after rfl other member
          exact each (first :: before) item after rfl other (List.mem_cons_of_mem _ member)

/-- The items of a part are the other way round when of two of them the one that is
later in the whole comes first. -/
theorem eq_reverse_iff_pairwise [DecidableEq α] {whole part items : List α}
    (distinct : whole.Nodup) (sub : part.Sublist whole) (perm : items.Perm part) :
    items = part.reverse ↔
      items.Pairwise fun earlier later => whole.idxOf later < whole.idxOf earlier := by
  have ascending : whole.Pairwise fun earlier later =>
      whole.idxOf earlier < whole.idxOf later := by
    rw [List.pairwise_iff_getElem]
    intro i j iBelow jBelow less
    rw [distinct.idxOf_getElem, distinct.idxOf_getElem]
    exact less
  have descending : part.reverse.Pairwise fun earlier later =>
      whole.idxOf later < whole.idxOf earlier :=
    List.pairwise_reverse.mpr (ascending.sublist sub)
  constructor
  · rintro rfl
    exact descending
  · intro pairwise
    refine List.Perm.eq_of_pairwise ?_ pairwise descending
      (perm.trans (List.reverse_perm part).symm)
    intro a b _ _ one other
    exact absurd (Nat.lt_trans one other) (Nat.lt_irrefl _)

/-- A list of different items that reads the same from both ends holds one item. -/
theorem eq_of_palindrome {items : List α} (distinct : items.Nodup)
    (same : items.reverse = items) {one two : α} (oneMember : one ∈ items)
    (twoMember : two ∈ items) : one = two := by
  obtain ⟨i, iBelow, rfl⟩ := List.mem_iff_getElem.mp oneMember
  obtain ⟨j, jBelow, rfl⟩ := List.mem_iff_getElem.mp twoMember
  have mirror : items.reverse[0]? = items[0]? := by rw [same]
  rw [List.getElem?_reverse (by omega), List.getElem?_eq_getElem (by omega),
    List.getElem?_eq_getElem (by omega), Option.some.injEq, distinct.getElem_inj_iff] at mirror
  congr 1
  omega

/-- Lists whose items are told apart by a function are equal when their images are. -/
theorem eq_of_map_eq {f : α → β} (left : List α) :
    ∀ right : List α, (∀ a ∈ left, ∀ b ∈ right, f a = f b → a = b) →
      left.map f = right.map f → left = right := by
  induction left with
  | nil =>
      intro right _ same
      rw [List.map_nil, eq_comm, List.map_eq_nil_iff] at same
      exact same.symm
  | cons a left inductionHypothesis =>
      intro right apart same
      cases right with
      | nil => cases same
      | cons b right =>
          rw [List.map_cons, List.map_cons, List.cons.injEq] at same
          rw [apart a List.mem_cons_self b List.mem_cons_self same.1,
            inductionHypothesis right (fun a aMember b bMember => apart a
              (List.mem_cons_of_mem _ aMember) b (List.mem_cons_of_mem _ bMember)) same.2]

end Dotten.Library
