/-
Module: Dotten.Library.Ownership
Layer: Library
Purpose: Programs that take resources and give them back.  What a state holds is
  a multiset of arbitrary resources; a call is described by what it is given and
  by what its result owns, and leaves everything else that is held alone.
Imports: Dotten.Library.Returns
Main exports: Transfers, Transfers.bind, Transfers.frame, Transfers.call, Transfers.conseq,
  Transfers.forCount, Transfers.forM_with, Transfers.forM,
  Transfers.forM_keep, pick, pick_perm
-/
import Dotten.Library.Returns
import Mathlib.Algebra.BigOperators.Group.List.Basic
import Mathlib.Algebra.Order.BigOperators.Group.List
import Mathlib.Algebra.Order.Group.Multiset
import Mathlib.Data.Multiset.OrderedMonoid

namespace Dotten.Library

variable {ρ σ ι α β : Type}

/-- The program returns wherever `given` is held, whatever else is held with
it.  What its result owns has then taken the place of `given`, and the result
has a property. -/
def Transfers (held : σ → Multiset ι) (env : ρ) (given : Multiset ι) (program : Prog ρ σ α)
    (owns : α → Multiset ι) (fact : α → Prop) : Prop :=
  ∀ s rest, held s = given + rest →
    Returns program env s fun a s' => held s' = owns a + rest ∧ fact a

/-- An item's part of what the items own together. -/
theorem le_sum_of_mem {γ : Type} (owns : γ → Multiset ι) {items : List γ} {item : γ}
    (member : item ∈ items) : owns item ≤ (items.map owns).sum :=
  List.single_le_sum (fun _ _ => Multiset.zero_le _) _ (List.mem_map_of_mem member)

/-- What an optional result owns. -/
def ownsOption (owns : α → Multiset ι) : Option α → Multiset ι
  | none => 0
  | some a => owns a

@[simp] theorem ownsOption_none (owns : α → Multiset ι) : ownsOption owns none = 0 := rfl

@[simp] theorem ownsOption_some (owns : α → Multiset ι) (a : α) :
    ownsOption owns (some a) = owns a := rfl

section Rules

variable {held : σ → Multiset ι} {env : ρ} {given taken : Multiset ι}
  {owns : α → Multiset ι} {fact : α → Prop}

theorem Transfers.pure {a : α} (same : given = owns a) (holds : fact a) :
    Transfers held env given (pure a : Prog ρ σ α) owns fact := by
  intro s rest holding
  rw [returns_pure, ← same]
  exact ⟨holding, holds⟩

/-- The rule of composition. -/
theorem Transfers.bind {first : Prog ρ σ α} {next : α → Prog ρ σ β} {ownsNext : β → Multiset ι}
    {factNext : β → Prop} (transfers : Transfers held env given first owns fact)
    (continues : ∀ a, fact a → Transfers held env (owns a) (next a) ownsNext factNext) :
    Transfers held env given (first >>= next) ownsNext factNext := by
  intro s rest holding
  rw [returns_bind]
  apply (transfers s rest holding).mono
  rintro a s' ⟨holdingNow, holds⟩
  exact continues a holds s' rest holdingNow

/-- What a program is not given it leaves alone. -/
theorem Transfers.frame {program : Prog ρ σ α} (extra : Multiset ι)
    (transfers : Transfers held env taken program owns fact) :
    Transfers held env (taken + extra) program (fun a => owns a + extra) fact := by
  intro s rest holding
  rw [add_assoc] at holding
  apply (transfers s (extra + rest) holding).mono
  rintro a s' ⟨holdingNow, holds⟩
  rw [add_assoc]
  exact ⟨holdingNow, holds⟩

/-- A call takes its part of what is held, and what comes after it has its
result and everything that the call left alone. -/
theorem Transfers.call (extra : Multiset ι) {first : Prog ρ σ α} {next : α → Prog ρ σ β}
    {ownsNext : β → Multiset ι} {factNext : β → Prop}
    (transfers : Transfers held env taken first owns fact) (split : given = taken + extra)
    (continues : ∀ a, fact a →
      Transfers held env (owns a + extra) (next a) ownsNext factNext) :
    Transfers held env given (first >>= next) ownsNext factNext := by
  rw [split]
  exact (transfers.frame extra).bind continues

/-- The rule of consequence: the same resources, and a weaker property. -/
theorem Transfers.conseq {program : Prog ρ σ α} {ownsNext : α → Multiset ι}
    {factNext : α → Prop} (transfers : Transfers held env taken program owns fact)
    (same : given = taken) (sameOwned : ∀ a, fact a → owns a = ownsNext a)
    (weaken : ∀ a, fact a → factNext a) :
    Transfers held env given program ownsNext factNext := by
  intro s rest holding
  rw [same] at holding
  apply (transfers s rest holding).mono
  rintro a s' ⟨holdingNow, holds⟩
  rw [← sameOwned a holds]
  exact ⟨holdingNow, weaken a holds⟩

theorem Transfers.ite {condition : Prop} [Decidable condition] {yes no : Prog ρ σ α}
    (ofYes : condition → Transfers held env given yes owns fact)
    (ofNo : ¬ condition → Transfers held env given no owns fact) :
    Transfers held env given (if condition then yes else no) owns fact := by
  intro s rest holding
  exact returns_ite (fun holds => ofYes holds s rest holding)
    (fun fails => ofNo fails s rest holding)

/-- What holds of every result of the program may be added to its
property. -/
theorem Transfers.and {program : Prog ρ σ α} {good : α → Prop}
    (transfers : Transfers held env given program owns fact)
    (results : ∀ s a s', program env s = some (a, s') → good a) :
    Transfers held env given program owns fun a => fact a ∧ good a := by
  intro s rest holding
  obtain ⟨a, s', run, holdingNow, holds⟩ := transfers s rest holding
  exact ⟨a, s', run, holdingNow, holds, results s a s' run⟩

/-- A program that is given nothing and whose result owns nothing leaves what
is held as it was. -/
theorem Transfers.held_eq {program : Prog ρ σ α} {s : σ}
    (transfers : Transfers held env 0 program (fun _ => 0) fact) :
    Returns program env s fun a s' => held s' = held s ∧ fact a := by
  apply (transfers s (held s) (zero_add _).symm).mono
  rintro a s' ⟨holdingNow, holds⟩
  rw [zero_add] at holdingNow
  exact ⟨holdingNow, holds⟩

end Rules

/-- What one pass does, the loop does pass after pass. -/
theorem Transfers.forCount {held : σ → Multiset ι} {env : ρ} {body : Nat → Prog ρ σ Unit}
    {before : Nat → Multiset ι} {bound : Nat}
    (pass : ∀ i, i < bound →
      Transfers held env (before i) (body i) (fun _ => before (i + 1)) fun _ => True) :
    ∀ left i, i + left = bound →
      Transfers held env (before i) (Library.forCount body i left) (fun _ => before bound)
        fun _ => True := by
  intro left
  induction left with
  | zero =>
      intro i reached
      rw [Nat.add_zero] at reached
      subst reached
      exact Transfers.pure rfl trivial
  | succ left inductionHypothesis =>
      intro i within
      refine Transfers.bind (pass i (by omega)) ?_
      rintro ⟨⟩ -
      exact inductionHypothesis (i + 1) (by omega)

section Lists

variable {γ : Type} {held : σ → Multiset ι} {env : ρ} {items : List γ}
  {body : γ → Prog ρ σ PUnit}

/-- A loop over items that each give up what they own, with something that every
pass uses. -/
theorem Transfers.forM_with {owns : γ → Multiset ι} {kept : Multiset ι}
    (each : ∀ item ∈ items,
      Transfers held env (owns item + kept) (body item) (fun _ => kept) fun _ => True) :
    Transfers held env ((items.map owns).sum + kept) (items.forM body) (fun _ => kept)
      fun _ => True := by
  induction items with
  | nil => exact Transfers.pure (zero_add kept) trivial
  | cons item rest inductionHypothesis =>
      rw [List.map_cons, List.sum_cons, add_right_comm]
      refine Transfers.call _ (each item List.mem_cons_self) rfl ?_
      rintro ⟨⟩ -
      rw [add_comm]
      exact inductionHypothesis fun other member => each other (List.mem_cons_of_mem _ member)

/-- A loop over items that each give up what they own. -/
theorem Transfers.forM {owns : γ → Multiset ι}
    (each : ∀ item ∈ items,
      Transfers held env (owns item) (body item) (fun _ => 0) fun _ => True) :
    Transfers held env (items.map owns).sum (items.forM body) (fun _ => 0) fun _ => True :=
  (Transfers.forM_with fun item member =>
    (each item member).conseq (add_zero _) (fun _ _ => rfl) fun _ _ => trivial).conseq
      (add_zero _).symm (fun _ _ => rfl) fun _ _ => trivial

/-- A loop whose passes leave everything in place. -/
theorem Transfers.forM_keep {given : Multiset ι}
    (each : ∀ item ∈ items,
      Transfers held env given (body item) (fun _ => given) fun _ => True) :
    Transfers held env given (items.forM body) (fun _ => given) fun _ => True := by
  induction items with
  | nil => exact Transfers.pure rfl trivial
  | cons item rest inductionHypothesis =>
      refine Transfers.bind (each item List.mem_cons_self) ?_
      rintro ⟨⟩ -
      exact inductionHypothesis fun other member => each other (List.mem_cons_of_mem _ member)

end Lists

section Picking

variable {ι α : Type}

/-- The numbered item, and the others. -/
def pick (items : List α) (i : Nat) : Option (α × List α) :=
  items[i]?.map fun item => (item, items.eraseIdx i)

theorem pick_perm {items others : List α} {i : Nat} {item : α}
    (picked : pick items i = some (item, others)) : items.Perm (item :: others) := by
  obtain ⟨found, located, same⟩ := Option.map_eq_some_iff.mp picked
  cases same
  obtain ⟨within, rfl⟩ := List.getElem?_eq_some_iff.mp located
  exact (List.getElem_cons_eraseIdx_perm within).symm

theorem sum_toList (owns : α → Multiset ι) (item : Option α) :
    (item.toList.map owns).sum = ownsOption owns item := by
  cases item with
  | none => rfl
  | some item => exact List.sum_singleton

end Picking

end Dotten.Library
