/-
Module: Dotten.Path.PathWalk
Layer: Path
Purpose: Going from a path to its directory again and again ends at a dot or at
  a separator, and never changes whether the path is absolute.
Imports: Dotten.Path.PathSplitting
Main exports: tenPathWalk, IsTop, walk_ends, tenPathWalk_spec, tenPathWalk_ends
-/
import Dotten.Path.PathSplitting
import Mathlib.Logic.Function.Iterate

namespace Dotten

open Dotten.Library

/-- `ten_path_directory` of a path, of its result, and so on. -/
def tenPathWalk : Nat → Option CString → Ten (Option CString)
  | 0, path => pure path
  | steps + 1, path => do
      let directory ← tenPathDirectory path
      tenPathWalk steps directory

/-- A single dot or a single separator. -/
def IsTop (path : Bytes) : Prop :=
  path = [ascii '.'] ∨ ∃ sep, tenIsSep sep = true ∧ path = [sep]

/-- A path that starts with a slash. -/
def IsAbsolute (path : Bytes) : Prop := path.head? = some (ascii '/')

instance (path : Bytes) : Decidable (IsAbsolute path) := inferInstanceAs (Decidable (_ = _))

section Directories

variable {path : Bytes}

/-- The directory is at the top, or a shorter start of the path. -/
theorem directoryOf_cases (path : Bytes) :
    (IsTop (directoryOf path) ∧ (IsAbsolute (directoryOf path) ↔ IsAbsolute path)) ∨
      ∃ n, 0 < n ∧ n < path.length ∧ directoryOf path = path.take n := by
  rcases lastIdx?_cases tenIsSep path with
    ⟨plain, none⟩ | ⟨before, sep, after, rfl, isSep, plain, found⟩
  · left
    have dot : ¬ IsAbsolute [ascii '.'] := by decide
    rw [directoryOf, none]
    refine ⟨.inl rfl, iff_of_false dot ?_⟩
    intro absolute
    exact plain (ascii '/') (List.mem_of_mem_head? absolute) (by decide)
  · cases before with
    | nil =>
        left
        rw [directoryOf, found]
        exact ⟨.inr ⟨sep, isSep, rfl⟩, Iff.rfl⟩
    | cons c before =>
        right
        rw [directoryOf_append isSep plain (List.cons_ne_nil c before)]
        refine ⟨(c :: before).length, Nat.succ_pos _, ?_, List.take_left.symm⟩
        simp

theorem isAbsolute_take {n : Nat} (some : 0 < n) : IsAbsolute (path.take n) ↔ IsAbsolute path := by
  obtain ⟨n, rfl⟩ := Nat.exists_eq_succ_of_ne_zero (Nat.ne_of_gt some)
  cases path <;> exact Iff.rfl

/-- The directory of a path is absolute exactly when the path is. -/
theorem isAbsolute_directoryOf (path : Bytes) :
    IsAbsolute (directoryOf path) ↔ IsAbsolute path := by
  rcases directoryOf_cases path with ⟨-, same⟩ | ⟨n, some, -, shorter⟩
  · exact same
  · rw [shorter]
    exact isAbsolute_take some

theorem isAbsolute_iterate (steps : Nat) (path : Bytes) :
    IsAbsolute (directoryOf^[steps] path) ↔ IsAbsolute path := by
  induction steps generalizing path with
  | zero => exact Iff.rfl
  | succ steps inductionHypothesis =>
      rw [Function.iterate_succ_apply]
      exact (inductionHypothesis _).trans (isAbsolute_directoryOf path)

/-- The top is its own directory. -/
theorem IsTop.directoryOf_eq (top : IsTop path) : directoryOf path = path := by
  rcases top with rfl | ⟨sep, isSep, rfl⟩
  · rfl
  · rw [directoryOf, lastIdx?, lastIdxFrom, if_pos isSep]
    rfl

theorem IsTop.isAbsolute_iff (top : IsTop path) : IsAbsolute path ↔ path = [ascii '/'] := by
  rcases top with rfl | ⟨sep, -, rfl⟩
  · decide
  · rw [IsAbsolute, List.head?_cons, Option.some.injEq, List.cons.injEq, and_iff_left rfl]

/-- Every step that does not end the walk makes the path shorter. -/
theorem walk_ends (path : Bytes) :
    ∃ steps ≤ path.length + 1, IsTop (directoryOf^[steps] path) := by
  induction length : path.length using Nat.strongRecOn generalizing path with
  | ind n inductionHypothesis =>
      subst length
      rcases directoryOf_cases path with ⟨top, -⟩ | ⟨n, -, short, shorter⟩
      · exact ⟨1, by omega, top⟩
      · have length : (directoryOf path).length = n := by
          rw [shorter, List.length_take]
          omega
        obtain ⟨steps, few, top⟩ := inductionHypothesis n short _ length
        exact ⟨steps + 1, by omega, top⟩

end Directories

section Specifications

variable {grants : Schedule} {world : World}

/-- NULL has no directory. -/
theorem tenPathWalk_null (steps : Nat) :
    ∀ {world : World}, Returns (tenPathWalk steps none) grants world (fun reply _ =>
      reply = none) := by
  induction steps with
  | zero =>
      intro world
      rw [tenPathWalk, returns_pure]
  | succ steps inductionHypothesis =>
      intro world
      simp only [tenPathWalk, tenPathDirectory, returns_bind, returns_tenSetError, returns_pure]
      exact inductionHypothesis

theorem tenPathWalk_spec (steps : Nat) :
    ∀ {path : CString} {world : World}, Returns (tenPathWalk steps (some path)) grants world
      (fun reply _ => Yields grants (directoryOf^[steps] path.bytes) reply) := by
  induction steps with
  | zero =>
      intro path world
      rw [tenPathWalk, returns_pure]
      exact .inr ⟨path, rfl, rfl⟩
  | succ steps inductionHypothesis =>
      intro path world
      rw [tenPathWalk, returns_bind]
      apply (tenPathDirectory_spec path).mono
      rintro reply _ (⟨rfl, shortage⟩ | ⟨directory, rfl, bytes⟩)
      · apply (tenPathWalk_null steps).mono
        rintro _ _ rfl
        exact .inl ⟨rfl, shortage⟩
      · rw [Function.iterate_succ_apply, ← bytes]
        exact inductionHypothesis

/-- `ten_path_is_absolute` of a path of the walk, if there is no shortage. -/
def absoluteAfter (steps : Nat) (path : CString) : Ten (Option Bool) := do
  match ← tenPathWalk steps (some path) with
  | none => return none
  | some path =>
      let absolute ← tenPathIsAbsolute .posix (some path)
      return some absolute

theorem absoluteAfter_spec (steps : Nat) (path : CString) :
    Returns (absoluteAfter steps path) grants world (fun reply _ =>
      (reply = none ∧ ¬ Ample grants) ∨ reply = some (decide (IsAbsolute path.bytes))) := by
  rw [absoluteAfter, returns_bind]
  apply (tenPathWalk_spec steps).mono
  rintro reply _ (⟨rfl, shortage⟩ | ⟨reached, rfl, bytes⟩)
  · rw [returns_pure]
    exact .inl ⟨rfl, shortage⟩
  · rw [returns_bind]
    apply (tenPathIsAbsolute_posix reached).mono
    intro absolute _ answer
    rw [returns_pure]
    have same : absolute = true ↔ IsAbsolute path.bytes := by
      rw [answer, bytes]
      exact isAbsolute_iterate steps path.bytes
    right
    rw [Option.some.injEq, Bool.eq_iff_iff, same, decide_eq_true_iff]

/-- The walk reaches a path that is its own directory, a dot or a separator, and
`ten_path_is_absolute` answers the same all the way: a slash is reached from
absolute paths, and from no others. -/
theorem tenPathWalk_ends (path : CString) :
    ∃ (steps : Nat) (last : CString) (absolute : Bool), steps ≤ path.length + 1 ∧
      IsTop last.bytes ∧ (absolute = true ↔ last.bytes = [ascii '/']) ∧
      ∀ (grants : Schedule) (world : World),
        Returns (tenPathWalk steps (some path)) grants world (fun reply _ =>
          Yields grants last.bytes reply) ∧
        Returns (tenPathDirectory (some last)) grants world (fun reply _ =>
          Yields grants last.bytes reply) ∧
        ∀ k, Returns (absoluteAfter k path) grants world (fun reply _ =>
          (reply = none ∧ ¬ Ample grants) ∨ reply = some absolute) := by
  obtain ⟨steps, few, top⟩ := walk_ends path.bytes
  have noNul : (0 : Byte) ∉ directoryOf^[steps] path.bytes := by
    rcases top with dot | ⟨sep, isSep, single⟩
    · rw [dot]
      decide
    · rw [single]
      intro member
      rw [← List.mem_singleton.mp member] at isSep
      exact absurd isSep (by decide)
  refine ⟨steps, ⟨_, noNul⟩, decide (IsAbsolute path.bytes), few, top, ?_, ?_⟩
  · rw [decide_eq_true_iff, ← isAbsolute_iterate steps]
    exact top.isAbsolute_iff
  · intro grants world
    refine ⟨tenPathWalk_spec steps, ?_, fun k => absoluteAfter_spec k path⟩
    have same := top.directoryOf_eq
    apply (tenPathDirectory_spec _).mono
    intro reply _ yields
    dsimp only at yields
    rw [same] at yields
    exact yields

end Specifications

end Dotten
