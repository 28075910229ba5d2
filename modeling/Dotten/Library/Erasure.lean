/-
Module: Dotten.Library.Erasure
Layer: Library
Purpose: Two programs of which the first keeps account of more than the second.
  From related states, every run of the first is a run of the second with a
  result that agrees, and it ends in related states again.
Imports: Dotten.Library.Returns, Dotten.Library.Ownership
Main exports: Simulates, Simulates.pure, Simulates.bind, Simulates.skip,
  Simulates.of_unseen, Simulates.read, Simulates.ite, Simulates.cleanup, Erases, Erases.bind, Erases.run,
  Erases.returns, Unseen, Unseen.bind, Unseen.read, Unseen.forM,
  Unseen.forCount, Yields, Yields.erases
-/
import Dotten.Library.Returns
import Dotten.Library.Ownership

namespace Dotten.Library

variable {ρ σ τ α β γ δ : Type}

/-- Every run of the program is a run of the plain program, with results that
agree. -/
def Simulates (related : σ → τ → Prop) (agree : α → β → Prop) (program : Prog ρ σ α)
    (plain : Prog ρ τ β) : Prop :=
  ∀ env s t a s', related s t → program env s = some (a, s') →
    ∃ b t', plain env t = some (b, t') ∧ agree a b ∧ related s' t'

/-- The result of the plain program is what is seen of the result of the
program. -/
abbrev Erases (related : σ → τ → Prop) (view : α → β) (program : Prog ρ σ α)
    (plain : Prog ρ τ β) : Prop :=
  Simulates related (fun a b => view a = b) program plain

/-- The program does nothing that can be seen. -/
def Unseen (related : σ → τ → Prop) (program : Prog ρ σ α) : Prop :=
  ∀ env s t a s', related s t → program env s = some (a, s') → related s' t

/-- The program does nothing that can be seen, and its result is known. -/
def Yields (related : σ → τ → Prop) (program : Prog ρ σ α) (value : α) : Prop :=
  ∀ env s t a s', related s t → program env s = some (a, s') → a = value ∧ related s' t

section Rules

variable {related : σ → τ → Prop}

section Simulation

variable {agree : α → β → Prop} {agreeNext : γ → δ → Prop}

theorem Simulates.pure {a : α} {b : β} (agrees : agree a b) :
    Simulates related agree (pure a : Prog ρ σ α) (pure b) := by
  intro env s t a' s' here run
  cases run
  exact ⟨b, t, rfl, agrees, here⟩

theorem Simulates.bind {first : Prog ρ σ α} {plainFirst : Prog ρ τ β}
    {next : α → Prog ρ σ γ} {plainNext : β → Prog ρ τ δ}
    (head : Simulates related agree first plainFirst)
    (tail : ∀ a b, agree a b → Simulates related agreeNext (next a) (plainNext b)) :
    Simulates related agreeNext (first >>= next) (plainFirst >>= plainNext) := by
  intro env s t c s'' here run
  obtain ⟨a, s', runFirst, runNext⟩ := run_bind_iff.mp run
  obtain ⟨b, t', plainRun, agrees, there⟩ := head env s t a s' here runFirst
  obtain ⟨d, t'', plainRunNext, agreesNext, final⟩ := tail a b agrees env s' t' c s'' there runNext
  exact ⟨d, t'', run_bind_iff.mpr ⟨_, t', plainRun, plainRunNext⟩, agreesNext, final⟩

/-- A step that cannot be seen has no counterpart. -/
theorem Simulates.skip {first : Prog ρ σ α} {next : α → Prog ρ σ γ} {plain : Prog ρ τ δ}
    (unseen : Unseen related first) (tail : ∀ a, Simulates related agreeNext (next a) plain) :
    Simulates related agreeNext (first >>= next) plain := by
  intro env s t c s'' here run
  obtain ⟨a, s', runFirst, runNext⟩ := run_bind_iff.mp run
  exact tail a env s' t c s'' (unseen env s t a s' here runFirst) runNext

/-- A program of which nothing can be seen and a plain program that always ends and
keeps what is related. -/
theorem Simulates.of_unseen {program : Prog ρ σ α} {plain : Prog ρ τ β}
    (unseen : Unseen related program)
    (always : ∀ env t, ∃ b t', plain env t = some (b, t') ∧ ∀ s, related s t → related s t')
    (agrees : ∀ a b, agree a b) : Simulates related agree program plain := by
  intro env s t a s' here run
  obtain ⟨b, t', plainRun, keeps⟩ := always env t
  exact ⟨b, t', plainRun, agrees a b, keeps s' (unseen env s t a s' here run)⟩

/-- What follows a read follows with the value that is read. -/
theorem Simulates.read {first : Prog ρ σ α} {value : α} {next : α → Prog ρ σ γ}
    {plain : Prog ρ τ δ} (yields : Yields related first value)
    (tail : Simulates related agreeNext (next value) plain) :
    Simulates related agreeNext (first >>= next) plain := by
  intro env s t c s'' here run
  obtain ⟨a, s', runFirst, runNext⟩ := run_bind_iff.mp run
  obtain ⟨rfl, there⟩ := yields env s t a s' here runFirst
  exact tail env s' t c s'' there runNext

theorem Simulates.ite {condition : Prop} [Decidable condition]
    {yes no : Prog ρ σ α} {plainYes plainNo : Prog ρ τ β}
    (ofYes : condition → Simulates related agree yes plainYes)
    (ofNo : ¬ condition → Simulates related agree no plainNo) :
    Simulates related agree (if condition then yes else no)
      (if condition then plainYes else plainNo) := by
  by_cases holds : condition
  · rw [if_pos holds, if_pos holds]
    exact ofYes holds
  · rw [if_neg holds, if_neg holds]
    exact ofNo holds

theorem Simulates.mono {agreeLess : α → β → Prop} {program : Prog ρ σ α} {plain : Prog ρ τ β}
    (simulates : Simulates related agree program plain)
    (weaken : ∀ a b, agree a b → agreeLess a b) :
    Simulates related agreeLess program plain := by
  intro env s t a s' here run
  obtain ⟨b, t', plainRun, agrees, there⟩ := simulates env s t a s' here run
  exact ⟨b, t', plainRun, weaken a b agrees, there⟩

end Simulation

theorem Erases.bind {view : α → β} {viewNext : γ → δ} {first : Prog ρ σ α}
    {plainFirst : Prog ρ τ β} {next : α → Prog ρ σ γ} {plainNext : β → Prog ρ τ δ}
    (head : Erases related view first plainFirst)
    (tail : ∀ a, Erases related viewNext (next a) (plainNext (view a))) :
    Erases related viewNext (first >>= next) (plainFirst >>= plainNext) := by
  refine Simulates.bind head ?_
  rintro a _ rfl
  exact tail a

/-- What is cleared away behind the result cannot be seen. -/
theorem Simulates.cleanup {agree : α → β → Prop} {program : Prog ρ σ α} {plain : Prog ρ τ β}
    {clear : α → Prog ρ σ γ} (simulates : Simulates related agree program plain)
    (unseen : ∀ a, Unseen related (clear a)) :
    Simulates related agree
      (do
        let a ← program
        let _ ← clear a
        Pure.pure a) plain := by
  intro env s t a s'' here run
  obtain ⟨first, s', runFirst, runRest⟩ := run_bind_iff.mp run
  obtain ⟨cleared, last, runClear, runPure⟩ := run_bind_iff.mp runRest
  cases runPure
  obtain ⟨b, t', plainRun, agrees, there⟩ := simulates env s t a s' here runFirst
  exact ⟨b, t', plainRun, agrees, unseen a env s' t' cleared s'' there runClear⟩

/-- The run of the plain program that a run of the program is. -/
theorem Erases.run {view : α → β} {program : Prog ρ σ α} {plain : Prog ρ τ β} {env : ρ}
    {s : σ} {t : τ} {a : α} {s' : σ} (erases : Erases related view program plain)
    (here : related s t) (run : program env s = some (a, s')) :
    ∃ t', plain env t = some (view a, t') ∧ related s' t' := by
  obtain ⟨_, t', plainRun, rfl, there⟩ := erases env s t a s' here run
  exact ⟨t', plainRun, there⟩

/-- What is proved of every outcome of the plain program holds of what is seen
of the outcomes of the program. -/
theorem Erases.returns {view : α → β} {program : Prog ρ σ α} {plain : Prog ρ τ β} {env : ρ}
    {s : σ} {t : τ} {a : α} {s' : σ} {post : β → τ → Prop}
    (erases : Erases related view program plain) (here : related s t)
    (run : program env s = some (a, s')) (returns : Returns plain env t post) :
    ∃ t', related s' t' ∧ post (view a) t' := by
  obtain ⟨t', plainRun, there⟩ := erases.run here run
  exact ⟨t', there, returns.eq plainRun⟩

theorem Unseen.pure (a : α) : Unseen related (pure a : Prog ρ σ α) := by
  intro env s t a' s' here run
  cases run
  exact here

theorem Unseen.bind {first : Prog ρ σ α} {next : α → Prog ρ σ β} (head : Unseen related first)
    (tail : ∀ a, Unseen related (next a)) : Unseen related (first >>= next) := by
  intro env s t b s'' here run
  obtain ⟨a, s', runFirst, runNext⟩ := run_bind_iff.mp run
  exact tail a env s' t b s'' (head env s t a s' here runFirst) runNext

theorem Unseen.read {first : Prog ρ σ α} {value : α} {next : α → Prog ρ σ β}
    (yields : Yields related first value) (tail : Unseen related (next value)) :
    Unseen related (first >>= next) := by
  intro env s t b s'' here run
  obtain ⟨a, s', runFirst, runNext⟩ := run_bind_iff.mp run
  obtain ⟨rfl, there⟩ := yields env s t a s' here runFirst
  exact tail env s' t b s'' there runNext

theorem Unseen.forM {items : List γ} {body : γ → Prog ρ σ PUnit}
    (each : ∀ item, Unseen related (body item)) : Unseen related (items.forM body) := by
  induction items with
  | nil => exact Unseen.pure _
  | cons item rest inductionHypothesis =>
      exact Unseen.bind (each item) fun _ => inductionHypothesis

theorem Unseen.forCount {body : Nat → Prog ρ σ Unit} (each : ∀ i, Unseen related (body i)) :
    ∀ i left, Unseen related (Library.forCount body i left) := by
  intro i left
  induction left generalizing i with
  | zero => exact Unseen.pure _
  | succ left inductionHypothesis =>
      exact Unseen.bind (each i) fun _ => inductionHypothesis (i + 1)

theorem Yields.pure (a : α) : Yields related (pure a : Prog ρ σ α) a := by
  intro env s t a' s' here run
  cases run
  exact ⟨rfl, here⟩

/-- A read is the plain program that has the value already. -/
theorem Yields.erases {program : Prog ρ σ α} {value : α} (yields : Yields related program value) :
    Erases related id program (Pure.pure value : Prog ρ τ α) := by
  intro env s t a s' here run
  obtain ⟨rfl, there⟩ := yields env s t a s' here run
  exact ⟨a, t, rfl, rfl, there⟩

theorem Yields.read {first : Prog ρ σ α} {value : α} {next : α → Prog ρ σ β} {result : β}
    (head : Yields related first value) (tail : Yields related (next value) result) :
    Yields related (first >>= next) result := by
  intro env s t b s'' here run
  obtain ⟨a, s', runFirst, runNext⟩ := run_bind_iff.mp run
  obtain ⟨rfl, there⟩ := head env s t a s' here runFirst
  exact tail env s' t b s'' there runNext

theorem Yields.skip {first : Prog ρ σ α} {next : α → Prog ρ σ β} {result : β}
    (unseen : Unseen related first) (tail : ∀ a, Yields related (next a) result) :
    Yields related (first >>= next) result := by
  intro env s t b s'' here run
  obtain ⟨a, s', runFirst, runNext⟩ := run_bind_iff.mp run
  exact tail a env s' t b s'' (unseen env s t a s' here runFirst) runNext

end Rules

end Dotten.Library
