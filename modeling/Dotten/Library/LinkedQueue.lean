/-
Module: Dotten.Library.LinkedQueue
Layer: Library
Purpose: First-in first-out queues made of nodes that point to their
  successors, with pointers to the first and the last node.
Main exports: LinkedQueue, LinkedQueue.enqueue, LinkedQueue.dequeue,
  LinkedQueue.Represents, Represents.enqueue, Represents.dequeue
-/
import Mathlib.Data.List.Induction
import Mathlib.Data.List.Nodup
import Mathlib.Logic.Function.Basic

namespace Dotten.Library

/-- The pointers of a queue; `next` is the link of every node there is. -/
structure LinkedQueue (α : Type) where
  head : Option α
  tail : Option α
  next : α → Option α

namespace LinkedQueue

variable {α : Type}

/-- No node. -/
def empty : LinkedQueue α := { head := none, tail := none, next := fun _ => none }

/-- A new node, whose link is NULL, becomes the last one. -/
def enqueue [DecidableEq α] (queue : LinkedQueue α) (x : α) : LinkedQueue α :=
  match queue.tail with
  | none => { head := some x, tail := some x, next := Function.update queue.next x none }
  | some last =>
      { queue with
        tail := some x
        next := Function.update (Function.update queue.next x none) last (some x) }

/-- The first node `x` leaves; with the last node the tail is cleared. -/
def dequeue (queue : LinkedQueue α) (x : α) : LinkedQueue α :=
  { queue with
    head := queue.next x
    tail := if queue.next x = none then none else queue.tail }

/-- The nodes reached from a pointer, in order. -/
def Chain (next : α → Option α) : Option α → List α → Prop
  | pointer, [] => pointer = none
  | pointer, x :: rest => pointer = some x ∧ Chain next (next x) rest

/-- The queue holds the given nodes: they are linked in this order from the
head on, and the tail is the last of them. -/
structure Represents (queue : LinkedQueue α) (items : List α) : Prop where
  chain : Chain queue.next queue.head items
  tail : queue.tail = items.getLast?
  distinct : items.Nodup

theorem represents_empty : Represents (empty : LinkedQueue α) [] where
  chain := rfl
  tail := rfl
  distinct := List.nodup_nil

namespace Represents

variable {queue : LinkedQueue α} {items : List α}

theorem head_eq (represents : queue.Represents items) : queue.head = items.head? := by
  have chain := represents.chain
  cases items with
  | nil => exact chain
  | cons x rest => exact chain.1

/-- Head and tail are NULL together, when no node is held. -/
theorem head_eq_none_iff (represents : queue.Represents items) :
    queue.head = none ↔ items = [] := by
  rw [represents.head_eq, List.head?_eq_none_iff]

theorem tail_eq_none_iff (represents : queue.Represents items) :
    queue.tail = none ↔ items = [] := by
  rw [represents.tail, List.getLast?_eq_none_iff]

theorem exists_cons (represents : queue.Represents items) {x : α} (first : queue.head = some x) :
    ∃ rest, items = x :: rest := by
  rw [represents.head_eq] at first
  exact List.head?_eq_some_iff.mp first

end Represents

/-- Linking the last node of a chain to a node without a link. -/
theorem Chain.snoc [DecidableEq α] {next : α → Option α} {last x : α} {init : List α} :
    ∀ {pointer : Option α}, (init ++ [last]).Nodup → x ∉ init ++ [last] →
      Chain next pointer (init ++ [last]) →
      Chain (Function.update (Function.update next x none) last (some x)) pointer
        (init ++ [last, x]) := by
  induction init with
  | nil =>
      intro pointer _ fresh chain
      have apart : x ≠ last := by simpa using fresh
      refine ⟨chain.1, ?_, ?_⟩
      · rw [Function.update_self]
      · rw [Function.update_of_ne apart, Function.update_self]
        rfl
  | cons y init inductionHypothesis =>
      intro pointer distinct fresh chain
      simp only [List.cons_append, List.nodup_cons, List.mem_append, List.mem_cons, not_or]
        at distinct fresh
      have notLast : y ≠ last := distinct.1.2.1
      refine ⟨chain.1, ?_⟩
      rw [Function.update_of_ne notLast, Function.update_of_ne (Ne.symm fresh.1)]
      apply inductionHypothesis distinct.2
      · simpa using fresh.2
      · exact chain.2

namespace Represents

variable {queue : LinkedQueue α} {items : List α}

/-- A node that is not held yet is appended. -/
theorem enqueue [DecidableEq α] (represents : queue.Represents items) {x : α}
    (fresh : x ∉ items) : (queue.enqueue x).Represents (items ++ [x]) := by
  have distinct : (items ++ [x]).Nodup := by
    rw [← List.concat_eq_append]
    exact represents.distinct.concat fresh
  cases items using List.reverseRecOn with
  | nil =>
      have tail := represents.tail
      rw [LinkedQueue.enqueue, tail]
      exact ⟨⟨rfl, Function.update_self ..⟩, rfl, distinct⟩
  | append_singleton init last =>
      have tail := represents.tail
      rw [List.getLast?_concat] at tail
      rw [LinkedQueue.enqueue, tail]
      refine ⟨?_, ?_, distinct⟩
      · rw [List.append_assoc]
        exact represents.chain.snoc represents.distinct fresh
      · rw [List.getLast?_concat]

/-- The first node is taken out. -/
theorem dequeue {x : α} (represents : queue.Represents (x :: items)) :
    (queue.dequeue x).Represents items := by
  have chain := represents.chain.2
  have tail := represents.tail
  refine ⟨chain, ?_, (List.nodup_cons.mp represents.distinct).2⟩
  cases items with
  | nil =>
      have last : queue.next x = none := chain
      rw [LinkedQueue.dequeue, last]
      rfl
  | cons y rest =>
      have more : queue.next x ≠ none := by
        rw [chain.1]
        exact Option.some_ne_none y
      rw [LinkedQueue.dequeue]
      simp only [if_neg more, tail, List.getLast?_cons_cons]

end Represents

end LinkedQueue

end Dotten.Library
