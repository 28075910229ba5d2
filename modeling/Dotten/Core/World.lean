/-
Module: Dotten.Core.World
Layer: Core
Purpose: What every function of the library runs in: the error state of the
  calling thread (error.c) and the allocator (memory.c), whose refusals are a
  schedule that the caller of a function does not control.
Imports: Dotten.Library.Oracle, Dotten.Core.CString
Main exports: TenErrorCode, World, World.CleanIff, Ten, Ample, tenSetError,
  tenLastError, tenStrayReads, tenMalloc, tenCalloc, tenRealloc, tenMemdup
-/
import Dotten.Library.Oracle
import Dotten.Core.CString

namespace Dotten

open Dotten.Library

/-- `ten_error_code_t`. -/
inductive TenErrorCode where
  | ok
  | unknown
  | invalidArgument
  | nullArgument
  | outOfMemory
  | outOfRange
  | notFound
  | alreadyExists
  | accessDenied
  | notSupported
  | invalidState
  | timeout
  | cancelled
  | io
  | network
  | parse
  | encoding
  | system
  | alreadyInitialized
  | notInitialized
deriving DecidableEq, Repr, Inhabited

/-- The allocator's answers: the `i`-th request of a run is granted when the
schedule holds `true` at `i`.  Any set of requests may be refused. -/
abbrev Schedule := Nat → Bool

/-- No request is refused. -/
def Ample (grants : Schedule) : Prop :=
  ∀ request, grants request = true

theorem ample_always : Ample fun _ => true := fun _ => rfl

/-- What the library reads and writes outside its own objects. -/
structure World where
  /-- Allocation requests made so far.  The number of a granted request is the
  address of the block it returned, so addresses are never reused. -/
  requests : Nat
  /-- `g_ten_last_error`. -/
  lastError : TenErrorCode
  /-- How often a string has been read that was freed before.  What the C program
  does then is undefined; the model counts the read and goes on with what the
  string held. -/
  strayReads : Nat := 0
deriving DecidableEq, Repr, Inhabited

/-- A function of the library. -/
abbrev Ten (α : Type) := Prog Schedule World α

/-- A run that reads what it may not read, or a loop that has run longer than
its data are long. -/
def stuck {α : Type} : Ten α := fun _ _ => none

/-- `ten__set_error`. -/
def tenSetError (code : TenErrorCode) : Ten Unit :=
  fun _ world => some ((), { world with lastError := code })

/-- `ten_last_error`. -/
def tenLastError : Ten TenErrorCode :=
  fun _ world => some (world.lastError, world)

/-- So many reads of freed strings. -/
def tenStrayReads (count : Nat) : Ten Unit :=
  fun _ world => some ((), { world with strayReads := world.strayReads + count })

/-- The world after a granted request. -/
def World.granted (world : World) : World :=
  { world with requests := world.requests + 1, lastError := .ok }

/-- The world after a refused request. -/
def World.refused (world : World) : World :=
  { world with requests := world.requests + 1, lastError := .outOfMemory }

/-- `ten_malloc`: the address of a new block, or NULL. -/
def tenMalloc : Ten (Option Nat) := fun grants world =>
  if grants world.requests then some (some world.requests, world.granted)
  else some (none, world.refused)

/-- `ten_calloc`, which differs from `ten_malloc` in the block's contents. -/
def tenCalloc : Ten (Option Nat) := tenMalloc

/-- `ten_realloc` to a positive size, as all sizes are that are computed
without wrapping.  NULL means a refusal. -/
def tenRealloc : Ten (Option Nat) := tenMalloc

/-- `ten_memdup` of the first `size` bytes of a block: what the copy holds. -/
def tenMemdup (data : Bytes) (size : Nat) : Ten (Option Bytes) := do
  let some _ ← tenMalloc
    | return none
  tenSetError .ok
  return some (data.take size)

/-- What happened between two worlds has read no freed string exactly when `clean`
holds. -/
structure World.CleanIff (before after : World) (clean : Prop) : Prop where
  le : before.strayReads ≤ after.strayReads
  iff : after.strayReads = before.strayReads ↔ clean

namespace World.CleanIff

variable {before between after : World} {clean other : Prop}

theorem of_eq (same : after.strayReads = before.strayReads) : before.CleanIff after True :=
  ⟨Nat.le_of_eq same.symm, iff_of_true same trivial⟩

theorem trans (first : before.CleanIff between clean) (second : between.CleanIff after other) :
    before.CleanIff after (clean ∧ other) := by
  have le := first.le
  have le' := second.le
  refine ⟨le.trans le', ?_⟩
  rw [← first.iff, ← second.iff]
  omega

theorem congr (clean_iff : before.CleanIff after clean) (same : clean ↔ other) :
    before.CleanIff after other :=
  ⟨clean_iff.le, clean_iff.iff.trans same⟩

/-- What follows reads no freed string. -/
theorem followed (first : before.CleanIff between clean)
    (same : after.strayReads = between.strayReads) : before.CleanIff after clean :=
  ⟨same ▸ first.le, same ▸ first.iff⟩

/-- What comes before reads no freed string. -/
theorem preceded (second : between.CleanIff after clean)
    (same : between.strayReads = before.strayReads) : before.CleanIff after clean :=
  ⟨same ▸ second.le, same ▸ second.iff⟩

end World.CleanIff

section Specifications

variable {grants : Schedule} {world : World}

theorem not_ample_of_refused {request : Nat} (refused : grants request = false) :
    ¬ Ample grants := by
  intro ample
  rw [ample request] at refused
  cases refused

theorem not_returns_stuck {α : Type} {post : α → World → Prop} :
    ¬ Returns (stuck : Ten α) grants world post := by
  rintro ⟨_, _, run, _⟩
  cases run

@[simp] theorem World.granted_requests : world.granted.requests = world.requests + 1 := rfl

@[simp] theorem World.refused_requests : world.refused.requests = world.requests + 1 := rfl

@[simp] theorem World.granted_lastError : world.granted.lastError = .ok := rfl

@[simp] theorem World.refused_lastError : world.refused.lastError = .outOfMemory := rfl

@[simp] theorem World.granted_strayReads : world.granted.strayReads = world.strayReads := rfl

@[simp] theorem World.refused_strayReads : world.refused.strayReads = world.strayReads := rfl

@[simp] theorem returns_tenSetError (code : TenErrorCode) (post : Unit → World → Prop) :
    Returns (tenSetError code) grants world post ↔
      post () { world with lastError := code } := by
  constructor
  · rintro ⟨_, _, run, holds⟩
    cases run
    exact holds
  · intro holds
    exact ⟨(), _, rfl, holds⟩

@[simp] theorem returns_tenStrayReads (count : Nat) (post : Unit → World → Prop) :
    Returns (tenStrayReads count) grants world post ↔
      post () { world with strayReads := world.strayReads + count } := by
  constructor
  · intro returns
    exact returns.eq rfl
  · intro holds
    exact ⟨(), _, rfl, holds⟩

@[simp] theorem returns_tenLastError (post : TenErrorCode → World → Prop) :
    Returns tenLastError grants world post ↔ post world.lastError world := by
  constructor
  · intro returns
    exact returns.eq rfl
  · intro holds
    exact ⟨_, _, rfl, holds⟩

/-- Both answers of the allocator. -/
@[simp] theorem returns_tenMalloc (post : Option Nat → World → Prop) :
    Returns tenMalloc grants world post ↔
      (grants world.requests = true → post (some world.requests) world.granted) ∧
        (grants world.requests = false → post none world.refused) := by
  unfold Returns tenMalloc
  cases answer : grants world.requests <;> simp

/-- When no request is refused, only one answer is left. -/
theorem returns_tenMalloc_of_ample (ample : Ample grants) (post : Option Nat → World → Prop) :
    Returns tenMalloc grants world post ↔ post (some world.requests) world.granted := by
  rw [returns_tenMalloc]
  simp [ample world.requests]

@[simp] theorem returns_tenCalloc (post : Option Nat → World → Prop) :
    Returns tenCalloc grants world post ↔ Returns tenMalloc grants world post :=
  Iff.rfl

@[simp] theorem returns_tenRealloc (post : Option Nat → World → Prop) :
    Returns tenRealloc grants world post ↔ Returns tenMalloc grants world post :=
  Iff.rfl

theorem keeps_tenSetError (code : TenErrorCode) :
    Keeps World.strayReads (tenSetError code) := by
  rintro grants world _ _ run
  cases run
  rfl

/-- A request reads no freed string. -/
theorem keeps_tenMalloc : Keeps World.strayReads tenMalloc := by
  intro grants world reply after run
  unfold tenMalloc at run
  split at run <;> cases run <;> rfl

theorem keeps_stuck {α : Type} : Keeps World.strayReads (stuck : Ten α) := by
  rintro grants world a after run
  cases run

/-- An error state is set whatever the allocator does. -/
theorem uniform_tenSetError (answer : Bool) (code : TenErrorCode) :
    Uniform World.requests answer (tenSetError code) :=
  fun world => ⟨0, (), { world with lastError := code }, rfl, fun _ _ => rfl⟩

/-- A request asks the allocator once. -/
theorem uniform_tenMalloc (answer : Bool) : Uniform World.requests answer tenMalloc := by
  intro world
  refine ⟨1, if answer then some world.requests else none,
    if answer then world.granted else world.refused, ?_, ?_⟩
  · cases answer <;> rfl
  · intro grants same
    have now : grants world.requests = answer := same 0 Nat.one_pos
    rw [tenMalloc, now]
    cases answer <;> rfl

/-- An error state is set without asking the allocator. -/
theorem confined_tenSetError (code : TenErrorCode) :
    Confined World.requests (tenSetError code) := by
  apply Confined.of_silent
  rintro grants world _ _ run
  cases run
  exact ⟨rfl, fun _ => rfl⟩

theorem confined_tenMalloc : Confined World.requests tenMalloc := by
  intro grants world reply after run
  unfold tenMalloc at run ⊢
  cases answer : grants world.requests with
  | true =>
      rw [answer, if_pos rfl] at run
      cases run
      refine ⟨Nat.le_succ _, fun other same => ?_⟩
      rw [same _ (Nat.le_refl _) (Nat.lt_succ_self _), answer, if_pos rfl]
  | false =>
      rw [answer, if_neg (by simp)] at run
      cases run
      refine ⟨Nat.le_succ _, fun other same => ?_⟩
      rw [same _ (Nat.le_refl _) (Nat.lt_succ_self _), answer, if_neg (by simp)]

theorem confined_stuck {α : Type} : Confined World.requests (stuck : Ten α) := by
  rintro grants world a after run
  cases run

end Specifications

end Dotten
