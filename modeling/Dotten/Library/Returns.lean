/-
Module: Dotten.Library.Returns
Layer: Library
Purpose: Programs that read a fixed environment, update a state and may get
  stuck, with the postcondition calculus used to reason about them.  Nothing
  here is specific to one program: `ρ` is any environment, `σ` any state.
Main exports: Prog, Returns, returns_pure, returns_bind, Returns.mono,
  Returns.and, Returns.eq, returns_iff_of_run, returns_iff_of_iff, forCount,
  returns_forCount, Keeps, Keeps.bind, Keeps.returns, Grows, RunLogic,
  returnsLogic
-/
import Mathlib.Tactic.Common

namespace Dotten.Library

/-- A program over an environment `ρ` and a state `σ`.  The outcome `none` is a
run that gets stuck: it reads what it may not read, or its step bound runs
out. -/
abbrev Prog (ρ σ : Type) := ReaderT ρ (StateT σ Option)

/-- Total correctness: from `s` the program ends without getting stuck, in a
result and a state that satisfy `post`. -/
def Returns {ρ σ α : Type} (program : Prog ρ σ α) (env : ρ) (s : σ)
    (post : α → σ → Prop) : Prop :=
  ∃ a s', program env s = some (a, s') ∧ post a s'

section Rules

variable {ρ σ α β : Type} {env : ρ} {s : σ}

@[simp] theorem returns_pure (a : α) (post : α → σ → Prop) :
    Returns (pure a : Prog ρ σ α) env s post ↔ post a s := by
  constructor
  · rintro ⟨b, s', run, holds⟩
    cases run
    exact holds
  · intro holds
    exact ⟨a, s, rfl, holds⟩

/-- A composition goes on from where its first program has ended. -/
theorem run_bind_of {first : Prog ρ σ α} {a : α} {s' : σ} (head : first env s = some (a, s'))
    (rest : α → Prog ρ σ β) : (first >>= rest) env s = rest a env s' := by
  change (first env s).bind (fun p => rest p.1 env p.2) = _
  rw [head]
  rfl

/-- A run of a composition is a run of its parts. -/
theorem run_bind_iff {first : Prog ρ σ α} {rest : α → Prog ρ σ β} {b : β} {s'' : σ} :
    (first >>= rest) env s = some (b, s'') ↔
      ∃ a s', first env s = some (a, s') ∧ rest a env s' = some (b, s'') := by
  change (first env s).bind (fun p => rest p.1 env p.2) = _ ↔ _
  rw [Option.bind_eq_some_iff]
  constructor
  · rintro ⟨⟨a, s'⟩, head, tail⟩
    exact ⟨a, s', head, tail⟩
  · rintro ⟨a, s', head, tail⟩
    exact ⟨(a, s'), head, tail⟩

/-- The rule of composition, as an equivalence, so that `simp` computes the
weakest precondition of a straight-line program. -/
@[simp] theorem returns_bind (first : Prog ρ σ α) (rest : α → Prog ρ σ β)
    (post : β → σ → Prop) :
    Returns (first >>= rest) env s post ↔
      Returns first env s (fun a s' => Returns (rest a) env s' post) := by
  constructor
  · rintro ⟨b, s'', run, holds⟩
    obtain ⟨a, s', head, tail⟩ := run_bind_iff.mp run
    exact ⟨a, s', head, b, s'', tail, holds⟩
  · rintro ⟨a, s', head, b, s'', tail, holds⟩
    exact ⟨b, s'', run_bind_iff.mpr ⟨a, s', head, tail⟩, holds⟩

@[simp] theorem returns_map (f : α → β) (program : Prog ρ σ α)
    (post : β → σ → Prop) :
    Returns (f <$> program) env s post ↔
      Returns program env s (fun a s' => post (f a) s') := by
  rw [map_eq_pure_bind, returns_bind]
  simp

/-- The rule of consequence. -/
theorem Returns.mono {program : Prog ρ σ α} {post weaker : α → σ → Prop}
    (returns : Returns program env s post)
    (weaken : ∀ a s', post a s' → weaker a s') :
    Returns program env s weaker := by
  obtain ⟨a, s', run, holds⟩ := returns
  exact ⟨a, s', run, weaken a s' holds⟩

/-- A run has one outcome, so two postconditions hold of it together. -/
theorem Returns.and {program : Prog ρ σ α} {left right : α → σ → Prop}
    (one : Returns program env s left) (two : Returns program env s right) :
    Returns program env s (fun a s' => left a s' ∧ right a s') := by
  obtain ⟨a, s', run, holds⟩ := one
  obtain ⟨b, t', again, also⟩ := two
  rw [run] at again
  cases again
  exact ⟨a, s', run, holds, also⟩

/-- The postcondition holds of the outcome a run is known to have. -/
theorem Returns.eq {program : Prog ρ σ α} {post : α → σ → Prop}
    (returns : Returns program env s post) {a : α} {s' : σ}
    (run : program env s = some (a, s')) : post a s' := by
  obtain ⟨b, t', again, holds⟩ := returns
  rw [run] at again
  cases again
  exact holds

/-- What holds of the outcome of a run that is known. -/
theorem returns_iff_of_run {program : Prog ρ σ α} {post : α → σ → Prop} {a : α} {s' : σ}
    (run : program env s = some (a, s')) : Returns program env s post ↔ post a s' := by
  constructor
  · intro returns
    exact returns.eq run
  · intro holds
    exact ⟨a, s', run, holds⟩

/-- What a postcondition amounts to on the only outcome of a run. -/
theorem returns_iff_of_iff {program : Prog ρ σ α} {post : α → σ → Prop} {fact : Prop}
    (returns : Returns program env s (fun a s' => post a s' ↔ fact)) :
    Returns program env s post ↔ fact := by
  obtain ⟨a, s', run, same⟩ := returns
  rw [returns_iff_of_run run]
  exact same

/-- A branch of the program on a decidable condition. -/
theorem returns_ite {condition : Prop} [Decidable condition]
    {yes no : Prog ρ σ α} {post : α → σ → Prop}
    (ofYes : condition → Returns yes env s post)
    (ofNo : ¬ condition → Returns no env s post) :
    Returns (if condition then yes else no) env s post := by
  by_cases holds : condition
  · rw [if_pos holds]
    exact ofYes holds
  · rw [if_neg holds]
    exact ofNo holds

/-- `for (i = first; i < first + count; i++) body(i)`. -/
def forCount (body : Nat → Prog ρ σ Unit) : Nat → Nat → Prog ρ σ Unit
  | _, 0 => return ()
  | i, left + 1 => do
      body i
      forCount body (i + 1) left

/-- What every pass keeps, the loop keeps pass after pass. -/
theorem returns_forCount {body : Nat → Prog ρ σ Unit} {invariant : Nat → σ → Prop} {bound : Nat}
    (pass : ∀ i s, i < bound → invariant i s →
      Returns (body i) env s fun _ s' => invariant (i + 1) s') :
    ∀ left i s, i + left = bound → invariant i s →
      Returns (forCount body i left) env s fun _ s' => invariant bound s' := by
  intro left
  induction left with
  | zero =>
      intro i s reached holds
      rw [Nat.add_zero] at reached
      subst reached
      exact (returns_pure _ _).mpr holds
  | succ left inductionHypothesis =>
      intro i s within holds
      rw [forCount, returns_bind]
      apply (pass i s (by omega) holds).mono
      intro _ s' next
      exact inductionHypothesis (i + 1) s' (by omega) next

end Rules

section Keeping

variable {ρ σ α β γ : Type} {see : σ → γ}

/-- No run of the program changes what `see` shows of the state. -/
def Keeps (see : σ → γ) (program : Prog ρ σ α) : Prop :=
  ∀ env s a s', program env s = some (a, s') → see s' = see s

theorem Keeps.pure (a : α) : Keeps see (pure a : Prog ρ σ α) := by
  rintro env s b s' run
  cases run
  rfl

/-- What follows needs to be so for the results of what comes first only. -/
theorem Keeps.bind_of {first : Prog ρ σ α} {rest : α → Prog ρ σ β} (keepsFirst : Keeps see first)
    (keepsRest : ∀ env s a s', first env s = some (a, s') → Keeps see (rest a)) :
    Keeps see (first >>= rest) := by
  intro env s b s'' run
  obtain ⟨a, s', head, tail⟩ := run_bind_iff.mp run
  exact (keepsRest _ _ _ _ head env s' b s'' tail).trans (keepsFirst env s a s' head)

theorem Keeps.bind {first : Prog ρ σ α} {rest : α → Prog ρ σ β} (keepsFirst : Keeps see first)
    (keepsRest : ∀ a, Keeps see (rest a)) : Keeps see (first >>= rest) :=
  keepsFirst.bind_of fun _ _ a _ _ => keepsRest a

theorem Keeps.ite {condition : Prop} [Decidable condition] {yes no : Prog ρ σ α}
    (keepsYes : Keeps see yes) (keepsNo : Keeps see no) :
    Keeps see (if condition then yes else no) := by
  split
  · exact keepsYes
  · exact keepsNo

/-- What a run leads to, and that it keeps what it keeps. -/
theorem Keeps.returns {program : Prog ρ σ α} (keeps : Keeps see program) {env : ρ} {s : σ}
    {post : α → σ → Prop} (returns : Returns program env s post) :
    Returns program env s fun a s' => post a s' ∧ see s' = see s := by
  obtain ⟨a, s', run, holds⟩ := returns
  exact ⟨a, s', run, holds, keeps env s a s' run⟩

/-- No run of the program makes the measure smaller. -/
def Grows (measure : σ → Nat) (program : Prog ρ σ α) : Prop :=
  ∀ env s a s', program env s = some (a, s') → measure s ≤ measure s'

theorem Keeps.grows {measure : σ → Nat} {program : Prog ρ σ α} (keeps : Keeps measure program) :
    Grows measure program :=
  fun env s a s' run => Nat.le_of_eq (keeps env s a s' run).symm

theorem Grows.bind {measure : σ → Nat} {first : Prog ρ σ α} {rest : α → Prog ρ σ β}
    (growsFirst : Grows measure first) (growsRest : ∀ a, Grows measure (rest a)) :
    Grows measure (first >>= rest) := by
  intro env s b s'' run
  obtain ⟨a, s', head, tail⟩ := run_bind_iff.mp run
  exact Nat.le_trans (growsFirst env s a s' head) (growsRest a env s' b s'' tail)

theorem Grows.ite {measure : σ → Nat} {condition : Prop} [Decidable condition]
    {yes no : Prog ρ σ α} (growsYes : Grows measure yes) (growsNo : Grows measure no) :
    Grows measure (if condition then yes else no) := by
  split
  · exact growsYes
  · exact growsNo

end Keeping

/-- A way of speaking about runs: what it says of a composition follows from
what it says of the parts. -/
structure RunLogic (ρ σ : Type) where
  Holds : ∀ {α : Type}, Prog ρ σ α → σ → (α → σ → Prop) → Prop
  pure : ∀ {α : Type} {a : α} {s : σ} {post : α → σ → Prop}, post a s → Holds (pure a) s post
  bind : ∀ {α β : Type} {first : Prog ρ σ α} {rest : α → Prog ρ σ β} {s : σ}
    {post : β → σ → Prop}, Holds first s (fun a s' => Holds (rest a) s' post) →
      Holds (first >>= rest) s post
  mono : ∀ {α : Type} {program : Prog ρ σ α} {s : σ} {post weaker : α → σ → Prop},
    Holds program s post → (∀ a s', post a s' → weaker a s') → Holds program s weaker

/-- The run in one environment. -/
def returnsLogic {ρ σ : Type} (env : ρ) : RunLogic ρ σ where
  Holds program s post := Returns program env s post
  pure := (returns_pure _ _).mpr
  bind := (returns_bind _ _ _).mpr
  mono := Returns.mono

end Dotten.Library
