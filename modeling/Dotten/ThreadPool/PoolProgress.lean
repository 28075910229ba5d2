/-
Module: Dotten.ThreadPool.PoolProgress
Layer: ThreadPool
Purpose: The pool never hangs: as long as anything is left to do, some thread
  that is in the middle of something can go on.
Imports: Dotten.ThreadPool.PoolWakeups
Main exports: Occupied, Occupied.act, PoolEvent.voluntary, AtRest,
  progress_of_reachable
-/
import Dotten.ThreadPool.PoolWakeups

namespace Dotten

open Dotten.Library

/-- Whoever holds the lock is inside. -/
structure Occupied (s : PoolState) : Prop where
  destroyer : s.owner = some .destroyer → s.destroyer.inside = true
  thread : ∀ t, s.owner = some (.thread t) →
    (s.submits t).inside = true ∨ ∃ w, t = .worker w ∧ (s.workers w).inside = true

/-- Nobody has to take the step: a call that starts, or a wake-up without a
signal. -/
def PoolEvent.voluntary : PoolEvent → Bool
  | .submitCall _ | .destroyCall | .workerSpurious _ => true
  | _ => false

/-- Nothing is left to do: nobody is in a call, every worker sleeps, and every task
that was accepted has run to its end. -/
structure AtRest (n : Nat) (s : PoolState) : Prop where
  submits : ∀ t, s.submits t = .idle
  workers : ∀ w < n, s.workers w = .asleep
  destroyer : s.destroyer = .idle
  queue : s.queue.head = none
  accepted : ∀ task, s.results task = some .ok → task ∈ s.finished

section Steps

variable {n : Nat} {s s' : PoolState} {event : PoolEvent}

attribute [local grind =] Function.update_apply

attribute [local grind] SubmitPc.inside WorkerPc.inside DestroyPc.inside

theorem occupied_created (n : Nat) : Occupied (.created n) where
  destroyer held := by cases held
  thread t held := by cases held

theorem Occupied.act_destroyer (occupied : Occupied s) (exclusive : Exclusive s)
    (at_ : s.At event) :
    (s.act event).owner = some .destroyer → (s.act event).destroyer.inside = true := by
  have destroyer := occupied.destroyer
  have submits := exclusive.submits
  have workers := exclusive.workers
  intro held
  cases event <;> dsimp only [PoolState.At, PoolState.act] at at_ held ⊢ <;>
    grind -ring -linarith -order -ac

theorem Occupied.act_thread (occupied : Occupied s) (exclusive : Exclusive s)
    (at_ : s.At event) (ready : s.Ready n event) :
    ∀ t, (s.act event).owner = some (.thread t) →
      ((s.act event).submits t).inside = true ∨
        ∃ w, t = .worker w ∧ ((s.act event).workers w).inside = true := by
  have thread := occupied.thread
  have submits := exclusive.submits
  have workers := exclusive.workers
  have destroyer := exclusive.destroyer
  intro t held
  cases event <;> dsimp only [PoolState.At, PoolState.Ready, PoolState.act] at at_ ready held ⊢ <;>
    grind -ring -linarith -order -ac

theorem occupied_of_reachable (positive : 0 < n) (reachable : Reachable n s) : Occupied s := by
  induction reachable with
  | created => exact occupied_created n
  | step reachable step inductionHypothesis =>
      have exclusive := (poolInvariant_of_reachable positive reachable).exclusive
      cases step with
      | act at_ ready alive =>
          exact ⟨inductionHypothesis.act_destroyer exclusive at_,
            inductionHypothesis.act_thread exclusive at_ ready⟩
      | fault at_ touches freed => exact { inductionHypothesis with }

/-- The holder of the lock can go on: what it does inside needs nobody else. -/
theorem exists_of_occupied (occupied : Occupied s) {holder : Holder}
    (held : s.owner = some holder) :
    ∃ event, event.voluntary = false ∧ s.At event ∧ s.Ready n event := by
  cases holder with
  | destroyer =>
      have inside := occupied.destroyer held
      cases place : s.destroyer with
      | flag => exact ⟨.destroyFlag, rfl, place, trivial⟩
      | unlock => exact ⟨.destroyUnlock, rfl, place, trivial⟩
      | _ =>
          rw [place] at inside
          cases inside
  | thread t =>
      rcases occupied.thread t held with inside | ⟨w, rfl, inside⟩
      · cases place : s.submits t with
        | check task => exact ⟨.submitCheck t task, rfl, place, trivial⟩
        | enqueue task => exact ⟨.submitEnqueue t task, rfl, place, trivial⟩
        | unlock task => exact ⟨.submitUnlock t task, rfl, place, trivial⟩
        | refuse task => exact ⟨.submitRefuse t task, rfl, place, trivial⟩
        | _ =>
            rw [place] at inside
            cases inside
      · cases place : s.workers w with
        | test =>
            cases front : s.queue.head with
            | some task => exact ⟨.workerTake w task, rfl, place, front⟩
            | none =>
                cases flag : s.shuttingDown with
                | true => exact ⟨.workerLeave w, rfl, place, front, flag⟩
                | false => exact ⟨.workerWait w, rfl, place, front, flag⟩
        | unlockExit => exact ⟨.workerUnlockExit w, rfl, place, trivial⟩
        | unlockRun task => exact ⟨.workerUnlockRun w task, rfl, place, trivial⟩
        | _ =>
            rw [place] at inside
            cases inside

/-- While nobody holds the lock, a thread in a call of submit can go on. -/
theorem exists_of_submits (exclusive : Exclusive s) (free : s.owner = none) {t : Thread}
    (busy : s.submits t ≠ .idle) :
    ∃ event, event.voluntary = false ∧ s.At event ∧ s.Ready n event := by
  have outside : (s.submits t).inside = false := by
    rw [← Bool.not_eq_true]
    intro inside
    have held := exclusive.submits t inside
    rw [free] at held
    cases held
  cases place : s.submits t with
  | idle => exact absurd place busy
  | allocate task => exact ⟨.submitAllocate t task, rfl, place, trivial⟩
  | lock task => exact ⟨.submitLock t task, rfl, place, free⟩
  | signal task =>
      by_cases heard : ∃ w < n, s.workers w = .asleep
      · obtain ⟨w, -, asleep⟩ := heard
        exact ⟨.submitSignal t task w, rfl, place, asleep⟩
      · refine ⟨.submitSignalUnheard t task, rfl, place, ?_⟩
        exact fun w inRange asleep => heard ⟨w, inRange, asleep⟩
  | _ =>
      rw [place] at outside
      cases outside

/-- While nobody holds the lock and nobody submits, a worker that is neither asleep
nor out can go on. -/
theorem exists_of_workers (exclusive : Exclusive s) (free : s.owner = none)
    (idle : ∀ t, s.submits t = .idle) {w : Nat} (awake : s.workers w ≠ .asleep)
    (inLoop : s.workers w ≠ .exited) :
    ∃ event, event.voluntary = false ∧ s.At event ∧ s.Ready n event := by
  have outside : (s.workers w).inside = false := by
    rw [← Bool.not_eq_true]
    intro inside
    have held := exclusive.workers w inside
    rw [free] at held
    cases held
  cases place : s.workers w with
  | lock => exact ⟨.workerLock w, rfl, place, free⟩
  | asleep => exact absurd place awake
  | exited => exact absurd place inLoop
  | call task => exact ⟨.workerCall w task, rfl, place, trivial⟩
  | running task => exact ⟨.workerReturn w task, rfl, place, idle (.worker w)⟩
  | _ =>
      rw [place] at outside
      cases outside

/-- While nobody else does anything, the destroyer can go on. -/
theorem exists_of_destroyer (invariant : PoolInvariant n s) (free : s.owner = none)
    (alive : s.freed = false) (settled : ∀ w, s.workers w = .asleep ∨ s.workers w = .exited)
    (called : s.destroyer ≠ .idle) :
    ∃ event, event.voluntary = false ∧ s.At event ∧ s.Ready n event := by
  have outside : s.destroyer.inside = false := by
    rw [← Bool.not_eq_true]
    intro inside
    have held := invariant.exclusive.destroyer inside
    rw [free] at held
    cases held
  cases place : s.destroyer with
  | idle => exact absurd place called
  | lock => exact ⟨.destroyLock, rfl, place, free⟩
  | broadcast => exact ⟨.destroyBroadcast, rfl, place, trivial⟩
  | join i =>
      have within : i ≤ n := by
        have bound := invariant.shutdown.joinedLe
        rw [place] at bound
        exact bound
      rcases Nat.lt_or_eq_of_le within with more | rfl
      · -- all workers have been woken, so a worker that does nothing is out
        have notAsleep := invariant.shutdown.awake (by rw [place]; rfl) i
        exact ⟨.destroyJoin i, rfl, place, more, (settled i).resolve_left notAsleep⟩
      · exact ⟨.destroyJoined i, rfl, place, rfl⟩
  | drain cursor =>
      have empty := invariant.shutdown.drained cursor place
      rw [empty] at place
      exact ⟨.destroyFree, rfl, place, trivial⟩
  | done =>
      have freed := invariant.shutdown.freed.mpr place
      rw [alive] at freed
      cases freed
  | _ =>
      rw [place] at outside
      cases outside

/-- A pool in which only the sleeping workers are left has run everything. -/
theorem atRest_of_idle (invariant : PoolInvariant n s) (wakeful : Wakeful n s)
    (idle : ∀ t, s.submits t = .idle)
    (settled : ∀ w, s.workers w = .asleep ∨ s.workers w = .exited)
    (uncalled : s.destroyer = .idle) : AtRest n s := by
  have flag : s.shuttingDown = false := by
    rw [invariant.shutdown.flag, uncalled]
    rfl
  have asleep : ∀ w < n, s.workers w = .asleep := by
    intro w inRange
    refine (settled w).resolve_right fun exited => ?_
    have leaving := (invariant.shutdown.leaving w inRange (by rw [exited]; rfl)).1
    rw [flag] at leaving
    cases leaving
  have empty : s.queue.head = none := by
    by_contra nonempty
    rcases wakeful nonempty with ⟨w, inRange, awake⟩ | ⟨t, entered⟩ | mustWake
    · rw [asleep w inRange] at awake
      cases awake
    · rw [idle t] at entered
      cases entered
    · rw [uncalled] at mustWake
      cases mustWake
  refine ⟨idle, asleep, uncalled, empty, ?_⟩
  intro task result
  obtain ⟨items, enqueued, represents⟩ := invariant.queued
  rw [represents.head_eq_none_iff.mp empty, List.append_nil] at enqueued
  have entered : task ∈ s.taken := by
    rw [← enqueued]
    exact (invariant.numbered.settled task .ok result).mpr rfl
  rcases invariant.held.settled task entered with finished | ⟨w, holds⟩
  · exact finished
  · rcases settled w with here | here
    · rw [here] at holds
      cases holds
    · rw [here] at holds
      cases holds

end Steps

/-- In every state of every run in which the pool has not been freed, some thread
can take a step that it has to take, or the pool is at rest.  In particular
`ten_thread_pool_destroy` never hangs. -/
theorem progress_of_reachable {n : Nat} {s : PoolState} (positive : 0 < n)
    (reachable : Reachable n s) (alive : s.freed = false) :
    (∃ event, event.voluntary = false ∧ s.At event ∧ s.Ready n event) ∨ AtRest n s := by
  have invariant := poolInvariant_of_reachable positive reachable
  cases held : s.owner with
  | some holder => exact .inl (exists_of_occupied (occupied_of_reachable positive reachable) held)
  | none =>
      by_cases idle : ∀ t, s.submits t = .idle
      · by_cases settled : ∀ w, s.workers w = .asleep ∨ s.workers w = .exited
        · by_cases called : s.destroyer = .idle
          · exact .inr (atRest_of_idle invariant (wakeful_of_reachable positive reachable) idle
              settled called)
          · exact .inl (exists_of_destroyer invariant held alive settled called)
        · obtain ⟨w, awake⟩ := not_forall.mp settled
          rw [not_or] at awake
          exact .inl (exists_of_workers invariant.exclusive held idle awake.1 awake.2)
      · obtain ⟨t, busy⟩ := not_forall.mp idle
        exact .inl (exists_of_submits invariant.exclusive held busy)

end Dotten
