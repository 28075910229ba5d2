/-
Module: Dotten.Library.Runs
Layer: Library
Purpose: What holds along the runs of a transition relation: an invariant of the
  steps, and a relation between what is seen of the two ends.  States, steps
  and what is seen of a state are arbitrary.
Main exports: holds_of_run, related_of_run
-/
import Mathlib.Logic.Relation

namespace Dotten.Library

variable {State View : Type} {Step : State → State → Prop} {Holds : State → Prop}

/-- What every step keeps holds at the end of a run if it holds at its start. -/
theorem holds_of_run {s t : State} (run : Relation.ReflTransGen Step s t) (start : Holds s)
    (keeps : ∀ s s', Holds s → Step s s' → Holds s') : Holds t := by
  induction run with
  | refl => exact start
  | tail _ step inductionHypothesis => exact keeps _ _ inductionHypothesis step

/-- What every step from a state of the invariant does to the view, the whole
run does, when it can be done twice and not at all. -/
theorem related_of_run (related : View → View → Prop) (view : State → View) {s t : State}
    (run : Relation.ReflTransGen Step s t) (start : Holds s)
    (keeps : ∀ s s', Holds s → Step s s' → Holds s')
    (relates : ∀ s s', Holds s → Step s s' → related (view s) (view s'))
    (refl : ∀ v, related v v)
    (trans : ∀ {first second third}, related first second → related second third →
      related first third) :
    related (view s) (view t) := by
  induction run with
  | refl => exact refl _
  | tail earlier step inductionHypothesis =>
      have holds := holds_of_run earlier start keeps
      exact trans inductionHypothesis (relates _ _ holds step)

end Dotten.Library
