/-
Module: Dotten.Library.Lockstep
Layer: Library
Purpose: Machines that answer one input after the other, against what a
  specification answers: when the answers of a whole run are the same.  Inputs,
  outputs and states are arbitrary, and an input may find a machine blocked.
Main exports: Reactive, Reactive.outputs, ReactiveSpec, ReactiveSpec.replies,
  ReactiveSpec.Throughout, outputs_of_refines, outputs_eq_iff
-/
import Mathlib.Tactic.Common

namespace Dotten.Library

/-- A machine that answers inputs; `none` means that it does not answer. -/
structure Reactive (State Input Output : Type) where
  step : State → Input → Option (Output × State)

/-- A machine that answers every input. -/
structure ReactiveSpec (State Input Output : Type) where
  reply : State → Input → Output
  next : State → Input → State

variable {State Input Output Abstract : Type}

/-- The answers of a run, unless the machine stops answering. -/
def Reactive.outputs (machine : Reactive State Input Output) :
    State → List Input → Option (List Output)
  | _, [] => some []
  | state, input :: inputs => do
      let (output, state) ← machine.step state input
      let outputs ← machine.outputs state inputs
      return output :: outputs

namespace ReactiveSpec

/-- The answers of a run of the specification. -/
def replies (spec : ReactiveSpec Abstract Input Output) : Abstract → List Input → List Output
  | _, [] => []
  | state, input :: inputs => spec.reply state input :: spec.replies (spec.next state input) inputs

/-- The condition holds at every input of a run of the specification. -/
def Throughout (spec : ReactiveSpec Abstract Input Output) (condition : Abstract → Input → Prop) :
    Abstract → List Input → Prop
  | _, [] => True
  | state, input :: inputs =>
      condition state input ∧ spec.Throughout condition (spec.next state input) inputs

instance Throughout.decidable (spec : ReactiveSpec Abstract Input Output)
    (condition : Abstract → Input → Prop) [∀ state input, Decidable (condition state input)] :
    ∀ (state : Abstract) (inputs : List Input), Decidable (spec.Throughout condition state inputs)
  | _, [] => .isTrue trivial
  | state, input :: inputs =>
      have : Decidable (spec.Throughout condition (spec.next state input) inputs) :=
        Throughout.decidable spec condition (spec.next state input) inputs
      inferInstanceAs (Decidable (_ ∧ _))

end ReactiveSpec

variable {machine : Reactive State Input Output} {spec : ReactiveSpec Abstract Input Output}
  {allowed agrees : Abstract → Input → Prop} {Related : Abstract → State → Prop}

/-- A machine whose allowed steps answer as the specification does, and stay
related to it, answers allowed runs as the specification does. -/
theorem outputs_of_refines
    (refines : ∀ {abstract state input}, Related abstract state → allowed abstract input →
      ∃ next, machine.step state input = some (spec.reply abstract input, next) ∧
        Related (spec.next abstract input) next) (inputs : List Input) :
    ∀ {abstract state}, Related abstract state → spec.Throughout allowed abstract inputs →
      machine.outputs state inputs = some (spec.replies abstract inputs) := by
  induction inputs with
  | nil =>
      intro abstract state _ _
      rfl
  | cons input inputs inductionHypothesis =>
      rintro abstract state related ⟨now, later⟩
      obtain ⟨next, step, relatedNext⟩ := refines related now
      rw [Reactive.outputs, step]
      simp only [Option.bind_eq_bind, Option.bind_some, Option.pure_def,
        inductionHypothesis relatedNext later]
      rfl

/-- A machine that follows the specification in the allowed steps that agree, and
in no other, answers an allowed run as the specification does exactly when every
step agrees. -/
theorem outputs_eq_iff
    (follows : ∀ {abstract state input}, Related abstract state → allowed abstract input →
      agrees abstract input → ∃ next, machine.step state input =
        some (spec.reply abstract input, next) ∧ Related (spec.next abstract input) next)
    (leaves : ∀ {abstract state input}, Related abstract state → allowed abstract input →
      ¬ agrees abstract input → ∀ next, machine.step state input ≠
        some (spec.reply abstract input, next)) (inputs : List Input) :
    ∀ {abstract state}, Related abstract state → spec.Throughout allowed abstract inputs →
      (machine.outputs state inputs = some (spec.replies abstract inputs) ↔
        spec.Throughout agrees abstract inputs) := by
  induction inputs with
  | nil =>
      intro abstract state _ _
      exact iff_of_true rfl trivial
  | cons input inputs inductionHypothesis =>
      rintro abstract state related ⟨now, later⟩
      rw [Reactive.outputs, ReactiveSpec.Throughout, ReactiveSpec.replies]
      by_cases agree : agrees abstract input
      · obtain ⟨next, step, relatedNext⟩ := follows related now agree
        rw [← inductionHypothesis relatedNext later, step]
        simp only [Option.bind_eq_bind, Option.bind_some, Option.pure_def]
        cases machine.outputs next inputs with
        | none => simp
        | some outputs => simp [agree]
      · refine iff_of_false ?_ fun both => agree both.1
        intro same
        obtain ⟨⟨output, next⟩, step, rest⟩ := Option.bind_eq_some_iff.mp same
        obtain ⟨outputs, -, answers⟩ := Option.bind_eq_some_iff.mp rest
        cases answers
        exact leaves related now agree next step

end Dotten.Library
