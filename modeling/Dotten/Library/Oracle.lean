/-
Module: Dotten.Library.Oracle
Layer: Library
Purpose: Programs whose environment is an oracle that they ask one question
  after the other: what some answers of the oracle lead to.  A run depends on the
  answers to its own questions only, so the answers to its parts are put
  together.
Imports: Dotten.Library.Returns
Main exports: Allows, allowsLogic, Allows.exists_env, Compels,
  Compels.exists_env, Uniform, Uniform.allows, Confined, Silent, Silent.bind,
  Silent.forCount, Silent.uniform, Silent.confined, Confined.allows
-/
import Dotten.Library.Returns

namespace Dotten.Library

variable {β σ α γ : Type} {position : σ → Nat}

/-- The answers that an environment gives from a position on. -/
def Answers (env : Nat → β) (start : Nat) (answers : List β) : Prop :=
  ∀ i b, answers[i]? = some b → env (start + i) = b

theorem Answers.left {env : Nat → β} {start : Nat} {first second : List β}
    (answers : Answers env start (first ++ second)) : Answers env start first := by
  intro i b here
  apply answers i b
  have within := List.getElem?_eq_some_iff.mp here
  rw [List.getElem?_append_left within.1]
  exact here

theorem Answers.right {env : Nat → β} {start : Nat} {first second : List β}
    (answers : Answers env start (first ++ second)) :
    Answers env (start + first.length) second := by
  intro i b here
  rw [Nat.add_assoc]
  apply answers (first.length + i) b
  rw [List.getElem?_append_right (Nat.le_add_right _ _), Nat.add_sub_cancel_left]
  exact here

/-- Some answers to the questions of the run lead to an outcome with the
property, whatever the environment answers to other questions. -/
def Allows (position : σ → Nat) (program : Prog (Nat → β) σ α) (s : σ) (post : α → σ → Prop) :
    Prop :=
  ∃ (answers : List β) (a : α) (s' : σ), position s' = position s + answers.length ∧ post a s' ∧
    ∀ env, Answers env (position s) answers → program env s = some (a, s')

theorem Allows.pure {a : α} {s : σ} {post : α → σ → Prop} (holds : post a s) :
    Allows (β := β) position (pure a) s post :=
  ⟨[], a, s, rfl, holds, fun _ _ => rfl⟩

theorem Allows.bind {first : Prog (Nat → β) σ α} {rest : α → Prog (Nat → β) σ γ} {s : σ}
    {post : γ → σ → Prop}
    (allows : Allows position first s (fun a s' => Allows position (rest a) s' post)) :
    Allows position (first >>= rest) s post := by
  obtain ⟨left, a, s', middle, ⟨right, c, s'', last, holds, second⟩, run⟩ := allows
  refine ⟨left ++ right, c, s'', ?_, holds, ?_⟩
  · rw [last, middle, List.length_append, Nat.add_assoc]
  · intro env answers
    have behind := answers.right
    rw [← middle] at behind
    rw [run_bind_of (run env answers.left)]
    exact second env behind

theorem Allows.mono {program : Prog (Nat → β) σ α} {s : σ} {post weaker : α → σ → Prop}
    (allows : Allows position program s post) (weaken : ∀ a s', post a s' → weaker a s') :
    Allows position program s weaker := by
  obtain ⟨answers, a, s', last, holds, run⟩ := allows
  exact ⟨answers, a, s', last, weaken a s' holds, run⟩

/-- What some answers lead to, as a way of speaking about runs. -/
def allowsLogic (position : σ → Nat) : RunLogic (Nat → β) σ where
  Holds program s post := Allows position program s post
  pure := Allows.pure
  bind := Allows.bind
  mono := Allows.mono

/-- An environment that gives the answers. -/
theorem exists_answers [Inhabited β] (start : Nat) (answers : List β) :
    ∃ env, Answers env start answers := by
  refine ⟨fun question => (answers[question - start]?).getD default, ?_⟩
  intro i b here
  dsimp only
  rw [Nat.add_sub_cancel_left, here]
  rfl

theorem Allows.exists_env [Inhabited β] {program : Prog (Nat → β) σ α} {s : σ}
    {post : α → σ → Prop} (allows : Allows position program s post) :
    ∃ env, Returns program env s post := by
  obtain ⟨answers, a, s', -, holds, run⟩ := allows
  obtain ⟨env, given⟩ := exists_answers (position s) answers
  exact ⟨env, a, s', run env given, holds⟩

/-- What holds of every outcome holds of this one. -/
theorem Allows.and_always [Inhabited β] {program : Prog (Nat → β) σ α} {s : σ}
    {post side : α → σ → Prop} (allows : Allows position program s post)
    (always : ∀ env a s', program env s = some (a, s') → side a s') :
    Allows position program s (fun a s' => post a s' ∧ side a s') := by
  obtain ⟨answers, a, s', last, holds, run⟩ := allows
  obtain ⟨env, given⟩ := exists_answers (position s) answers
  exact ⟨answers, a, s', last, ⟨holds, always env a s' (run env given)⟩, run⟩

/-- Some answers to the first questions of the run force an outcome with the property,
if there is an outcome. -/
def Compels (position : σ → Nat) (program : Prog (Nat → β) σ α) (s : σ) (post : α → σ → Prop) :
    Prop :=
  ∃ answers : List β, ∀ env, Answers env (position s) answers →
    ∀ a s', program env s = some (a, s') → post a s'

/-- An outcome of the first part that can be had, and answers that force the second. -/
theorem Allows.compels_bind {first : Prog (Nat → β) σ α} {rest : α → Prog (Nat → β) σ γ} {s : σ}
    {post : γ → σ → Prop}
    (allows : Allows position first s (fun a s' => Compels position (rest a) s' post)) :
    Compels position (first >>= rest) s post := by
  obtain ⟨left, a, s', middle, ⟨right, forced⟩, run⟩ := allows
  refine ⟨left ++ right, ?_⟩
  intro env given c s'' whole
  have behind := given.right
  rw [← middle] at behind
  rw [run_bind_of (run env given.left)] at whole
  exact forced env behind c s'' whole

/-- What has grown stays grown. -/
theorem Compels.bind_grows {measure : σ → Nat} {bound : Nat} {first : Prog (Nat → β) σ α}
    {rest : α → Prog (Nat → β) σ γ} {s : σ}
    (forced : Compels position first s (fun _ s' => bound < measure s'))
    (grows : ∀ a, Grows measure (rest a)) :
    Compels position (first >>= rest) s (fun _ s' => bound < measure s') := by
  obtain ⟨answers, forced⟩ := forced
  refine ⟨answers, ?_⟩
  intro env given c s'' whole
  obtain ⟨a, s', head, tail⟩ := run_bind_iff.mp whole
  exact Nat.lt_of_lt_of_le (forced env given a s' head) (grows a env s' c s'' tail)

theorem Compels.mono {program : Prog (Nat → β) σ α} {s : σ} {post weaker : α → σ → Prop}
    (forced : Compels position program s post) (weaken : ∀ a s', post a s' → weaker a s') :
    Compels position program s weaker := by
  obtain ⟨answers, forced⟩ := forced
  exact ⟨answers, fun env given a s' run => weaken a s' (forced env given a s' run)⟩

/-- A program that always returns can be brought to what is forced. -/
theorem Compels.exists_env [Inhabited β] {program : Prog (Nat → β) σ α} {s : σ}
    {post : α → σ → Prop} (forced : Compels position program s post)
    (returns : ∀ env, Returns program env s (fun _ _ => True)) :
    ∃ env, Returns program env s post := by
  obtain ⟨answers, forced⟩ := forced
  obtain ⟨env, given⟩ := exists_answers (position s) answers
  obtain ⟨a, s', run, -⟩ := returns env
  exact ⟨env, a, s', run, forced env given a s' run⟩

/-- Every run of the program is determined by its own questions, when they are
all answered in one way. -/
def Uniform (position : σ → Nat) (b : β) (program : Prog (Nat → β) σ α) : Prop :=
  ∀ s, ∃ (questions : Nat) (a : α) (s' : σ), position s' = position s + questions ∧
    ∀ env, (∀ i < questions, env (position s + i) = b) → program env s = some (a, s')

theorem Uniform.pure {b : β} (a : α) : Uniform position b (pure a) :=
  fun s => ⟨0, a, s, rfl, fun _ _ => rfl⟩

theorem Uniform.bind {b : β} {first : Prog (Nat → β) σ α} {rest : α → Prog (Nat → β) σ γ}
    (uniformFirst : Uniform position b first) (uniformRest : ∀ a, Uniform position b (rest a)) :
    Uniform position b (first >>= rest) := by
  intro s
  obtain ⟨left, a, s', middle, run⟩ := uniformFirst s
  obtain ⟨right, c, s'', last, second⟩ := uniformRest a s'
  refine ⟨left + right, c, s'', by rw [last, middle, Nat.add_assoc], ?_⟩
  intro env same
  rw [run_bind_of (run env fun i below => same i (by omega))]
  apply second env
  intro i below
  rw [middle, Nat.add_assoc]
  exact same (left + i) (by omega)

/-- What holds when all answers are the same is something that answers can lead
to. -/
theorem Uniform.allows {b : β} {program : Prog (Nat → β) σ α} (uniform : Uniform position b program)
    {s : σ} {post : α → σ → Prop} (returns : Returns program (fun _ => b) s post) :
    Allows position program s post := by
  obtain ⟨questions, a, s', last, run⟩ := uniform s
  refine ⟨List.replicate questions b, a, s', ?_, returns.eq (run _ fun _ _ => rfl), ?_⟩
  · rw [last, List.length_replicate]
  · intro env answers
    apply run env
    intro i below
    apply answers i b
    rw [List.getElem?_replicate, if_pos below]

/-- A run asks the questions between its positions at the start and at the end, and
depends on the answers to no others. -/
def Confined (position : σ → Nat) (program : Prog (Nat → β) σ α) : Prop :=
  ∀ env s a s', program env s = some (a, s') → position s ≤ position s' ∧
    ∀ other : Nat → β, (∀ question, position s ≤ question → question < position s' →
      other question = env question) → program other s = some (a, s')

theorem Confined.pure (a : α) : Confined (β := β) position (pure a) := by
  rintro env s b s' run
  cases run
  exact ⟨Nat.le_refl _, fun _ _ => rfl⟩

theorem Confined.bind {first : Prog (Nat → β) σ α} {rest : α → Prog (Nat → β) σ γ}
    (confinedFirst : Confined position first) (confinedRest : ∀ a, Confined position (rest a)) :
    Confined position (first >>= rest) := by
  intro env s c s'' run
  obtain ⟨a, s', head, tail⟩ := run_bind_iff.mp run
  obtain ⟨upTo, runFirst⟩ := confinedFirst env s a s' head
  obtain ⟨fromThere, runRest⟩ := confinedRest a env s' c s'' tail
  refine ⟨Nat.le_trans upTo fromThere, fun other same => ?_⟩
  rw [run_bind_of (runFirst other fun question above below =>
    same question above (Nat.lt_of_lt_of_le below fromThere))]
  exact runRest other fun question above below => same question (Nat.le_trans upTo above) below

theorem Confined.ite {condition : Prop} [Decidable condition] {yes no : Prog (Nat → β) σ α}
    (confinedYes : Confined position yes) (confinedNo : Confined position no) :
    Confined position (if condition then yes else no) := by
  split
  · exact confinedYes
  · exact confinedNo

/-- A program that asks nothing is the same program for every oracle. -/
theorem Confined.of_silent {program : Prog (Nat → β) σ α}
    (silent : ∀ env s a s', program env s = some (a, s') →
      position s' = position s ∧ ∀ other : Nat → β, program other s = some (a, s')) :
    Confined position program := by
  intro env s a s' run
  obtain ⟨same, again⟩ := silent env s a s' run
  exact ⟨Nat.le_of_eq same.symm, fun other _ => again other⟩

/-- A program that always returns and asks nothing on the way. -/
def Silent (position : σ → Nat) (program : Prog (Nat → β) σ α) : Prop :=
  ∀ s, ∃ a s', position s' = position s ∧ ∀ env, program env s = some (a, s')

theorem Silent.pure (a : α) : Silent (β := β) position (pure a) :=
  fun s => ⟨a, s, rfl, fun _ => rfl⟩

theorem Silent.bind {first : Prog (Nat → β) σ α} {rest : α → Prog (Nat → β) σ γ}
    (silentFirst : Silent position first) (silentRest : ∀ a, Silent position (rest a)) :
    Silent position (first >>= rest) := by
  intro s
  obtain ⟨a, s', middle, head⟩ := silentFirst s
  obtain ⟨c, s'', last, tail⟩ := silentRest a s'
  refine ⟨c, s'', last.trans middle, fun env => ?_⟩
  rw [run_bind_of (head env)]
  exact tail env

theorem Silent.forCount {body : Nat → Prog (Nat → β) σ Unit} {bound : Nat}
    (each : ∀ i < bound, Silent position (body i)) :
    ∀ left i, i + left = bound → Silent position (Library.forCount body i left) := by
  intro left
  induction left with
  | zero => exact fun _ _ => .pure ()
  | succ left inductionHypothesis =>
      intro i within
      exact (each i (by omega)).bind fun _ => inductionHypothesis (i + 1) (by omega)

theorem Silent.uniform {program : Prog (Nat → β) σ α} (silent : Silent position program) (b : β) :
    Uniform position b program := by
  intro s
  obtain ⟨a, s', same, run⟩ := silent s
  exact ⟨0, a, s', same, fun env _ => run env⟩

theorem Silent.confined {program : Prog (Nat → β) σ α} (silent : Silent position program) :
    Confined position program := by
  apply Confined.of_silent
  intro env s a s' run
  obtain ⟨b, t, same, always⟩ := silent s
  rw [always env] at run
  cases run
  exact ⟨same, always⟩

/-- What holds of the run for one oracle is something that answers can lead to:
those of this oracle. -/
theorem Confined.allows {program : Prog (Nat → β) σ α} (confined : Confined position program)
    {env : Nat → β} {s : σ} {post : α → σ → Prop} (returns : Returns program env s post) :
    Allows position program s post := by
  obtain ⟨a, s', run, holds⟩ := returns
  obtain ⟨upTo, again⟩ := confined env s a s' run
  refine ⟨(List.range (position s' - position s)).map fun i => env (position s + i), a, s', ?_,
    holds, ?_⟩
  · rw [List.length_map, List.length_range]
    omega
  · intro other answers
    apply again
    intro question above below
    have here := answers (question - position s) (env question) (by
      rw [List.getElem?_map, List.getElem?_range (by omega), Option.map_some,
        Nat.add_sub_cancel' above])
    rw [Nat.add_sub_cancel' above] at here
    exact here

end Dotten.Library
