/-
Module: Dotten.Library.Potential
Layer: Library
Purpose: Runs that are paid for: when every event lowers a potential, but for the
  events that bring in more, a run is no longer than the potential at its start
  and what its events bring in; and where no event brings in more, every run ends
  where it cannot go on.
Main exports: Trace, Trace.length_le, Inevitable, inevitable_of_potential,
  sum_weight_update
-/
import Mathlib

namespace Dotten.Library

variable {σ ε : Type} {Step : σ → ε → σ → Prop} {Holds : σ → Prop}

/-- A run with the events that happen in it. -/
inductive Trace (Step : σ → ε → σ → Prop) : σ → List ε → σ → Prop where
  | nil (s : σ) : Trace Step s [] s
  | cons {s s' s'' : σ} {event : ε} {events : List ε} (step : Step s event s')
      (rest : Trace Step s' events s'') : Trace Step s (event :: events) s''

/-- Every event costs one. -/
theorem Trace.length_le (potential : σ → Nat) (income : ε → Nat) {s t : σ} {events : List ε}
    (trace : Trace Step s events t) (start : Holds s)
    (keeps : ∀ s event s', event ∈ events → Holds s → Step s event s' → Holds s')
    (pays : ∀ s event s', event ∈ events → Holds s → Step s event s' →
      potential s' + 1 ≤ potential s + income event) :
    events.length + potential t ≤ potential s + (events.map income).sum := by
  induction trace with
  | nil s => simp
  | @cons s s' t event events step rest inductionHypothesis =>
      have paid := pays s event s' List.mem_cons_self start step
      have later := inductionHypothesis (keeps s event s' List.mem_cons_self start step)
        (fun s other s' member => keeps s other s' (List.mem_cons_of_mem _ member))
        (fun s other s' member => pays s other s' (List.mem_cons_of_mem _ member))
      rw [List.length_cons, List.map_cons, List.sum_cons]
      omega

/-- Whatever happens, the run comes to a state with the property, and it does not
stop before. -/
inductive Inevitable (Step : σ → ε → σ → Prop) (Goal : σ → Prop) : σ → Prop where
  | here {s : σ} (goal : Goal s) : Inevitable Step Goal s
  | later {s : σ} (more : ∃ event s', Step s event s')
      (every : ∀ event s', Step s event s' → Inevitable Step Goal s') : Inevitable Step Goal s

/-- What can go on until the goal is met, and pays for every step, meets it. -/
theorem inevitable_of_potential {Goal : σ → Prop} (potential : σ → Nat)
    (progress : ∀ s, Holds s → ¬Goal s → ∃ event s', Step s event s')
    (keeps : ∀ s event s', Holds s → ¬Goal s → Step s event s' → Holds s')
    (pays : ∀ s event s', Holds s → ¬Goal s → Step s event s' →
      potential s' + 1 ≤ potential s) {s : σ} (start : Holds s) : Inevitable Step Goal s := by
  suffices below : ∀ bound s, potential s < bound → Holds s → Inevitable Step Goal s from
    below (potential s + 1) s (Nat.lt_succ_self _) start
  intro bound
  induction bound with
  | zero => exact fun s low => absurd low (Nat.not_lt_zero _)
  | succ bound inductionHypothesis =>
      intro s low holds
      by_cases goal : Goal s
      · exact .here goal
      · refine .later (progress s holds goal) fun event s' step => ?_
        have paid := pays s event s' holds goal step
        exact inductionHypothesis s' (by omega) (keeps s event s' holds goal step)

/-- A sum of weights changes by the one weight that is changed. -/
theorem sum_weight_update {α β : Type} [DecidableEq α] (weight : β → Nat) (f : α → β)
    {items : Finset α} {a : α} (member : a ∈ items) (b : β) :
    ∑ x ∈ items, weight (Function.update f a b x) + weight (f a) =
      ∑ x ∈ items, weight (f x) + weight b := by
  rw [← Finset.add_sum_erase items _ member, ← Finset.add_sum_erase items _ member,
    Function.update_self]
  have others : ∑ x ∈ items.erase a, weight (Function.update f a b x) =
      ∑ x ∈ items.erase a, weight (f x) := by
    refine Finset.sum_congr rfl fun x there => ?_
    rw [Function.update_of_ne (Finset.ne_of_mem_erase there)]
  rw [others]
  omega

end Dotten.Library
