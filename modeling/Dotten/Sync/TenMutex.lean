/-
Module: Dotten.Sync.TenMutex
Layer: Sync
Purpose: The mutexes of sync_posix.c and sync_windows.c over what the two systems
  document of their locks, and when both answer a run of calls alike.
Imports: Dotten.Core.World, Dotten.Library.Lockstep
Main exports: MutexCall, PthreadMutex, CriticalSection, Posix.tenMutexTryLock,
  Windows.tenMutexTryLock, posixMutex, windowsMutex, plainLock, Disciplined,
  Probes, posix_answers, windows_answers_iff, mutexes_agree_iff,
  recursive_mutexes_agree
-/
import Dotten.Core.World
import Dotten.Library.Lockstep

namespace Dotten

open Dotten.Library

/-- What the functions of pthread return, as far as the library looks. -/
inductive PthreadRc where
  | zero
  | ebusy
  | etimedout
  | other
deriving DecidableEq, Repr

/-- The calls on a mutex. -/
inductive MutexCall where
  | lock
  | tryLock
  | unlock
deriving DecidableEq, Repr

/-- `pthread_mutex_t`: its type, and the thread that has locked it with the number
of times that it has.  A mutex of the default type does not look at the thread. -/
structure PthreadMutex (Thread : Type) where
  recursive : Bool
  holder : Option (Thread × Nat)
deriving DecidableEq, Repr

/-- `CRITICAL_SECTION`: the thread that owns it, and how often it has entered. -/
structure CriticalSection (Thread : Type) where
  owner : Option (Thread × Nat)
deriving DecidableEq, Repr

variable {Thread : Type} [DecidableEq Thread]

/-- A thread gives back one of its locks. -/
def released (thread : Thread) (count : Nat) : Option (Thread × Nat) :=
  if count ≤ 1 then none else some (thread, count - 1)

/-- `pthread_mutex_lock`; `none` stands for a call that does not return. -/
def pthreadMutexLock (mutex : PthreadMutex Thread) (self : Thread) :
    Option (PthreadRc × PthreadMutex Thread) :=
  match mutex.holder with
  | none => some (.zero, { mutex with holder := some (self, 1) })
  | some (thread, count) =>
      if mutex.recursive ∧ thread = self then
        some (.zero, { mutex with holder := some (self, count + 1) })
      else
        none

/-- `pthread_mutex_trylock`. -/
def pthreadMutexTrylock (mutex : PthreadMutex Thread) (self : Thread) :
    PthreadRc × PthreadMutex Thread :=
  match mutex.holder with
  | none => (.zero, { mutex with holder := some (self, 1) })
  | some (thread, count) =>
      if mutex.recursive ∧ thread = self then
        (.zero, { mutex with holder := some (self, count + 1) })
      else
        (.ebusy, mutex)

/-- `pthread_mutex_unlock`; `none` stands for what is undefined, the unlocking by
another thread. -/
def pthreadMutexUnlock (mutex : PthreadMutex Thread) (self : Thread) :
    Option (PthreadRc × PthreadMutex Thread) :=
  match mutex.holder with
  | none => none
  | some (thread, count) =>
      if thread = self then
        some (.zero, { mutex with holder := released self count })
      else
        none

/-- `EnterCriticalSection`; `none` stands for a call that does not return. -/
def enterCriticalSection (handle : CriticalSection Thread) (self : Thread) :
    Option (CriticalSection Thread) :=
  match handle.owner with
  | none => some { owner := some (self, 1) }
  | some (thread, count) =>
      if thread = self then some { owner := some (self, count + 1) } else none

/-- `TryEnterCriticalSection`. -/
def tryEnterCriticalSection (handle : CriticalSection Thread) (self : Thread) :
    Bool × CriticalSection Thread :=
  match handle.owner with
  | none => (true, { owner := some (self, 1) })
  | some (thread, count) =>
      if thread = self then (true, { owner := some (self, count + 1) }) else (false, handle)

/-- `LeaveCriticalSection`; `none` stands for what is undefined, the leaving by
another thread. -/
def leaveCriticalSection (handle : CriticalSection Thread) (self : Thread) :
    Option (CriticalSection Thread) :=
  match handle.owner with
  | none => none
  | some (thread, count) =>
      if thread = self then some { owner := released self count } else none

namespace Posix

/-- `ten__mutex_create`, where `pthread_mutex_init` returns `rc`. -/
def tenMutexCreate (rc : PthreadRc) (recursive : Bool) : Ten (Option (PthreadMutex Thread)) := do
  let some _ ← tenMalloc
    | return none
  if rc ≠ .zero then
    tenSetError .system
    return none
  else
    tenSetError .ok
    return some { recursive, holder := none }

/-- `ten_mutex_lock`: the code that is returned, which is the error state of the
calling thread too. -/
def tenMutexLock (mutex : PthreadMutex Thread) (self : Thread) :
    Option (TenErrorCode × PthreadMutex Thread) := do
  let (rc, mutex) ← pthreadMutexLock mutex self
  if rc ≠ .zero then
    return (.system, mutex)
  else
    return (.ok, mutex)

/-- `ten_mutex_try_lock`. -/
def tenMutexTryLock (mutex : PthreadMutex Thread) (self : Thread) :
    TenErrorCode × PthreadMutex Thread :=
  let (rc, mutex) := pthreadMutexTrylock mutex self
  if rc = .zero then
    (.ok, mutex)
  else if rc = .ebusy then
    (.timeout, mutex)
  else
    (.system, mutex)

/-- `ten_mutex_unlock`. -/
def tenMutexUnlock (mutex : PthreadMutex Thread) (self : Thread) :
    Option (TenErrorCode × PthreadMutex Thread) := do
  let (rc, mutex) ← pthreadMutexUnlock mutex self
  if rc ≠ .zero then
    return (.system, mutex)
  else
    return (.ok, mutex)

end Posix

namespace Windows

/-- `ten__mutex_create`. -/
def tenMutexCreate : Ten (Option (CriticalSection Thread)) := do
  let some _ ← tenMalloc
    | return none
  tenSetError .ok
  return some { owner := none }

/-- `ten_mutex_lock`. -/
def tenMutexLock (mutex : CriticalSection Thread) (self : Thread) :
    Option (TenErrorCode × CriticalSection Thread) := do
  let mutex ← enterCriticalSection mutex self
  return (.ok, mutex)

/-- `ten_mutex_try_lock`. -/
def tenMutexTryLock (mutex : CriticalSection Thread) (self : Thread) :
    TenErrorCode × CriticalSection Thread :=
  let (entered, mutex) := tryEnterCriticalSection mutex self
  if !entered then (.timeout, mutex) else (.ok, mutex)

/-- `ten_mutex_unlock`. -/
def tenMutexUnlock (mutex : CriticalSection Thread) (self : Thread) :
    Option (TenErrorCode × CriticalSection Thread) := do
  let mutex ← leaveCriticalSection mutex self
  return (.ok, mutex)

end Windows

/-- The mutex of the POSIX backend, as it answers the calls of threads. -/
def posixMutex : Reactive (PthreadMutex Thread) (Thread × MutexCall) TenErrorCode where
  step mutex
    | (self, .lock) => Posix.tenMutexLock mutex self
    | (self, .tryLock) => some (Posix.tenMutexTryLock mutex self)
    | (self, .unlock) => Posix.tenMutexUnlock mutex self

/-- The mutex of the Windows backend. -/
def windowsMutex : Reactive (CriticalSection Thread) (Thread × MutexCall) TenErrorCode where
  step mutex
    | (self, .lock) => Windows.tenMutexLock mutex self
    | (self, .tryLock) => some (Windows.tenMutexTryLock mutex self)
    | (self, .unlock) => Windows.tenMutexUnlock mutex self

/-- A lock that one thread holds at a time, and holds once. -/
def plainLock : ReactiveSpec (Option Thread) (Thread × MutexCall) TenErrorCode where
  reply
    | some _, (_, .tryLock) => .timeout
    | _, _ => .ok
  next
    | none, (self, .lock) => some self
    | none, (self, .tryLock) => some self
    | _, (_, .unlock) => none
    | held, _ => held

/-- A lock is only issued when the mutex is free, and an unlock only by the
owner. -/
def Disciplined (held : Option Thread) : Thread × MutexCall → Prop
  | (_, .lock) => held = none
  | (_, .tryLock) => True
  | (self, .unlock) => held = some self

/-- The owner of the mutex tries to lock it. -/
def Probes (held : Option Thread) : Thread × MutexCall → Prop
  | (self, .tryLock) => held = some self
  | _ => False

instance (held : Option Thread) (input : Thread × MutexCall) :
    Decidable (Disciplined held input) := by
  unfold Disciplined
  split <;> infer_instance

instance (held : Option Thread) (input : Thread × MutexCall) : Decidable (Probes held input) := by
  unfold Probes
  split <;> infer_instance

section Plain

/-- A default mutex and who holds it. -/
def SamePosix (held : Option Thread) (mutex : PthreadMutex Thread) : Prop :=
  mutex = ⟨false, held.map (·, 1)⟩

/-- A critical section that nobody has entered twice. -/
def SameWindows (held : Option Thread) (mutex : CriticalSection Thread) : Prop :=
  mutex = ⟨held.map (·, 1)⟩

/-- A default mutex is a lock, whoever calls. -/
theorem posixMutex_step {held : Option Thread} {mutex : PthreadMutex Thread}
    {input : Thread × MutexCall} (same : SamePosix held mutex)
    (disciplined : Disciplined held input) :
    ∃ next, posixMutex.step mutex input = some (plainLock.reply held input, next) ∧
      SamePosix (plainLock.next held input) next := by
  cases same
  obtain ⟨self, call⟩ := input
  cases call with
  | lock =>
      cases disciplined
      exact ⟨_, rfl, rfl⟩
  | tryLock =>
      cases held with
      | none => exact ⟨_, rfl, rfl⟩
      | some owner => exact ⟨_, rfl, rfl⟩
  | unlock =>
      cases disciplined
      refine ⟨⟨false, none⟩, ?_, rfl⟩
      simp [posixMutex, Posix.tenMutexUnlock, pthreadMutexUnlock, released, plainLock]

/-- A critical section is a lock, as long as its owner does not probe it. -/
theorem windowsMutex_step {held : Option Thread} {mutex : CriticalSection Thread}
    {input : Thread × MutexCall} (same : SameWindows held mutex)
    (disciplined : Disciplined held input) (quiet : ¬ Probes held input) :
    ∃ next, windowsMutex.step mutex input = some (plainLock.reply held input, next) ∧
      SameWindows (plainLock.next held input) next := by
  cases same
  obtain ⟨self, call⟩ := input
  cases call with
  | lock =>
      cases disciplined
      exact ⟨_, rfl, rfl⟩
  | tryLock =>
      cases held with
      | none => exact ⟨_, rfl, rfl⟩
      | some owner =>
          have other : owner ≠ self := fun own => quiet (congrArg some own)
          refine ⟨⟨some (owner, 1)⟩, ?_, rfl⟩
          simp [windowsMutex, Windows.tenMutexTryLock, tryEnterCriticalSection, plainLock, other]
  | unlock =>
      cases disciplined
      refine ⟨⟨none⟩, ?_, rfl⟩
      simp [windowsMutex, Windows.tenMutexUnlock, leaveCriticalSection, released, plainLock]

/-- The owner of a critical section enters it once more. -/
theorem windowsMutex_probe {held : Option Thread} {mutex : CriticalSection Thread}
    {input : Thread × MutexCall} (same : SameWindows held mutex) (probes : Probes held input)
    (next : CriticalSection Thread) :
    windowsMutex.step mutex input ≠ some (plainLock.reply held input, next) := by
  cases same
  obtain ⟨self, call⟩ := input
  cases call with
  | lock => cases probes
  | unlock => cases probes
  | tryLock =>
      cases probes
      simp [windowsMutex, Windows.tenMutexTryLock, tryEnterCriticalSection, plainLock]

/-- The POSIX backend answers every disciplined run as a lock does. -/
theorem posix_answers {calls : List (Thread × MutexCall)}
    (disciplined : plainLock.Throughout Disciplined none calls) :
    posixMutex.outputs ⟨false, none⟩ calls = some (plainLock.replies none calls) :=
  outputs_of_refines posixMutex_step calls rfl disciplined

/-- The Windows backend does exactly when no owner probes. -/
theorem windows_answers_iff {calls : List (Thread × MutexCall)}
    (disciplined : plainLock.Throughout Disciplined none calls) :
    windowsMutex.outputs ⟨none⟩ calls = some (plainLock.replies none calls) ↔
      plainLock.Throughout (fun held input => ¬ Probes held input) none calls := by
  refine @outputs_eq_iff _ _ _ _ windowsMutex plainLock Disciplined
    (fun held input => ¬ Probes held input) SameWindows ?_ ?_ calls none ⟨none⟩ rfl disciplined
  · exact windowsMutex_step
  · intro held mutex input same _ probes next
    exact windowsMutex_probe same (not_not.mp probes) next

end Plain

/-- On mutexes that have just been made, the two backends answer a disciplined run
alike exactly when no owner tries to lock what it holds. -/
theorem mutexes_agree_iff {rc : PthreadRc} {grantsPosix grantsWindows : Schedule}
    {worldPosix worldWindows afterPosix afterWindows : World} {posix : PthreadMutex Thread}
    {windows : CriticalSection Thread}
    (madePosix : Posix.tenMutexCreate rc false grantsPosix worldPosix =
      some (some posix, afterPosix))
    (madeWindows : Windows.tenMutexCreate grantsWindows worldWindows =
      some (some windows, afterWindows))
    {calls : List (Thread × MutexCall)}
    (disciplined : plainLock.Throughout Disciplined none calls) :
    (posixMutex.outputs posix calls).isSome ∧
      (windowsMutex.outputs windows calls = posixMutex.outputs posix calls ↔
        plainLock.Throughout (fun held input => ¬ Probes held input) none calls) := by
  have newPosix : Returns (Posix.tenMutexCreate rc false) grantsPosix worldPosix
      (fun made _ => ∀ mutex : PthreadMutex Thread, made = some mutex → mutex = ⟨false, none⟩) := by
    simp only [Posix.tenMutexCreate, returns_bind, returns_tenMalloc]
    refine ⟨fun _ => ?_, fun _ => by simp⟩
    apply returns_ite
    · intro _
      simp
    · intro _
      simp only [returns_bind, returns_tenSetError, returns_pure, Option.some.injEq]
      rintro mutex rfl
      rfl
  have newWindows : Returns Windows.tenMutexCreate grantsWindows worldWindows
      (fun made _ => ∀ mutex : CriticalSection Thread, made = some mutex → mutex = ⟨none⟩) := by
    simp only [Windows.tenMutexCreate, returns_bind, returns_tenMalloc, returns_tenSetError,
      returns_pure, Option.some.injEq]
    refine ⟨fun _ mutex same => same.symm, fun _ mutex impossible => ?_⟩
    cases impossible
  cases newPosix.eq madePosix posix rfl
  cases newWindows.eq madeWindows windows rfl
  rw [posix_answers disciplined]
  exact ⟨rfl, windows_answers_iff disciplined⟩

/-- Two threads, each of which finds the mutex free in the end. -/
def twoThreads : List (Nat × MutexCall) :=
  [(0, .lock), (1, .tryLock), (0, .unlock), (1, .tryLock), (1, .unlock)]

theorem mutexes_agree_iff_twoThreads :
    (posixMutex.outputs ⟨false, none⟩ twoThreads).isSome ∧
      (windowsMutex.outputs ⟨none⟩ twoThreads = posixMutex.outputs ⟨false, none⟩ twoThreads ↔
        plainLock.Throughout (fun held input => ¬ Probes held input) none twoThreads) :=
  @mutexes_agree_iff Nat _ .zero (fun _ => true) (fun _ => true) default default _ _ ⟨false, none⟩
    ⟨none⟩ rfl rfl twoThreads (by decide)

/-- An owner that tries to lock what it holds is answered in two ways. -/
theorem mutexes_differ :
    plainLock.Throughout Disciplined none [((0 : Nat), MutexCall.lock), (0, .tryLock)] ∧
      posixMutex.outputs ⟨false, none⟩ [((0 : Nat), MutexCall.lock), (0, .tryLock)] =
        some [.ok, .timeout] ∧
      windowsMutex.outputs ⟨none⟩ [((0 : Nat), MutexCall.lock), (0, .tryLock)] =
        some [.ok, .ok] := by
  decide

section Recursive

/-- A lock that one thread holds at a time, as often as it has taken it. -/
def recursiveLock : ReactiveSpec (Option (Thread × Nat)) (Thread × MutexCall) TenErrorCode where
  reply
    | some (owner, _), (self, .tryLock) => if owner = self then .ok else .timeout
    | _, _ => .ok
  next
    | none, (self, .lock) | none, (self, .tryLock) => some (self, 1)
    | none, (_, .unlock) => none
    | some (owner, count), (self, .lock) | some (owner, count), (self, .tryLock) =>
        if owner = self then some (self, count + 1) else some (owner, count)
    | some (owner, count), (self, .unlock) =>
        if owner = self then released self count else some (owner, count)

/-- A lock is only issued when the mutex is free or held by the same thread, and an
unlock only by the owner. -/
def RecursivelyDisciplined (held : Option (Thread × Nat)) : Thread × MutexCall → Prop
  | (self, .lock) => ∀ hold, held = some hold → hold.1 = self
  | (_, .tryLock) => True
  | (self, .unlock) => ∃ count, held = some (self, count)

theorem recursive_posix_step {held : Option (Thread × Nat)} {mutex : PthreadMutex Thread}
    {input : Thread × MutexCall} (same : mutex = ⟨true, held⟩)
    (disciplined : RecursivelyDisciplined held input) :
    ∃ next, posixMutex.step mutex input = some (recursiveLock.reply held input, next) ∧
      next = ⟨true, recursiveLock.next held input⟩ := by
  cases same
  obtain ⟨self, call⟩ := input
  cases call with
  | lock =>
      cases held with
      | none => exact ⟨_, rfl, rfl⟩
      | some hold =>
          obtain ⟨owner, count⟩ := hold
          obtain rfl : owner = self := disciplined _ rfl
          refine ⟨_, ?_, rfl⟩
          simp [posixMutex, Posix.tenMutexLock, pthreadMutexLock, recursiveLock]
  | tryLock =>
      cases held with
      | none => exact ⟨_, rfl, rfl⟩
      | some hold =>
          obtain ⟨owner, count⟩ := hold
          refine ⟨_, ?_, rfl⟩
          by_cases own : owner = self
          · simp [posixMutex, Posix.tenMutexTryLock, pthreadMutexTrylock, recursiveLock, own]
          · simp [posixMutex, Posix.tenMutexTryLock, pthreadMutexTrylock, recursiveLock, own]
  | unlock =>
      obtain ⟨count, rfl⟩ := disciplined
      refine ⟨_, ?_, rfl⟩
      simp [posixMutex, Posix.tenMutexUnlock, pthreadMutexUnlock, recursiveLock]

theorem recursive_windows_step {held : Option (Thread × Nat)} {mutex : CriticalSection Thread}
    {input : Thread × MutexCall} (same : mutex = ⟨held⟩)
    (disciplined : RecursivelyDisciplined held input) :
    ∃ next, windowsMutex.step mutex input = some (recursiveLock.reply held input, next) ∧
      next = ⟨recursiveLock.next held input⟩ := by
  cases same
  obtain ⟨self, call⟩ := input
  cases call with
  | lock =>
      cases held with
      | none => exact ⟨_, rfl, rfl⟩
      | some hold =>
          obtain ⟨owner, count⟩ := hold
          obtain rfl : owner = self := disciplined _ rfl
          refine ⟨_, ?_, rfl⟩
          simp [windowsMutex, Windows.tenMutexLock, enterCriticalSection, recursiveLock]
  | tryLock =>
      cases held with
      | none => exact ⟨_, rfl, rfl⟩
      | some hold =>
          obtain ⟨owner, count⟩ := hold
          refine ⟨_, ?_, rfl⟩
          by_cases own : owner = self
          · simp [windowsMutex, Windows.tenMutexTryLock, tryEnterCriticalSection, recursiveLock, own]
          · simp [windowsMutex, Windows.tenMutexTryLock, tryEnterCriticalSection, recursiveLock, own]
  | unlock =>
      obtain ⟨count, rfl⟩ := disciplined
      refine ⟨_, ?_, rfl⟩
      simp [windowsMutex, Windows.tenMutexUnlock, leaveCriticalSection, recursiveLock]

/-- On recursive mutexes the two backends answer every disciplined run alike. -/
theorem recursive_mutexes_agree {calls : List (Thread × MutexCall)}
    (disciplined : recursiveLock.Throughout RecursivelyDisciplined none calls) :
    posixMutex.outputs ⟨true, none⟩ calls = some (recursiveLock.replies none calls) ∧
      windowsMutex.outputs ⟨none⟩ calls = some (recursiveLock.replies none calls) :=
  ⟨outputs_of_refines recursive_posix_step calls rfl disciplined,
    outputs_of_refines recursive_windows_step calls rfl disciplined⟩

end Recursive

end Dotten
