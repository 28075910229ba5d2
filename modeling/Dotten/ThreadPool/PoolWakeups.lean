/-
Module: Dotten.ThreadPool.PoolWakeups
Layer: ThreadPool
Purpose: No wake-up is lost: while the queue holds a task, somebody is awake to
  take it or is about to wake somebody.
Imports: Dotten.ThreadPool.PoolHistory
Main exports: Wakeful, Wakeful.act, threadPool_noLostWakeup
-/
import Dotten.ThreadPool.PoolHistory

namespace Dotten

open Dotten.Library

/-- The worker is in its loop and not asleep. -/
def WorkerPc.awake : WorkerPc → Bool
  | .asleep | .unlockExit | .exited => false
  | _ => true

/-- The destroyer has set the flag and has not woken the workers. -/
def DestroyPc.mustWake : DestroyPc → Bool
  | .unlock | .broadcast => true
  | _ => false

/-- While the queue holds a task, a worker is awake, or a submit has still to
signal, or destroy has still to broadcast. -/
def Wakeful (n : Nat) (s : PoolState) : Prop :=
  s.queue.head ≠ none →
    (∃ w < n, (s.workers w).awake = true) ∨ (∃ t, (s.submits t).entered = true) ∨
      s.destroyer.mustWake = true

section Steps

variable {n : Nat} {s s' : PoolState} {event : PoolEvent}

attribute [local grind =] Function.update_apply

attribute [local grind] SubmitPc.entered

theorem WorkerPc.awake_iff (pc : WorkerPc) :
    pc.awake = true ↔ pc ≠ .asleep ∧ pc.leaving = false := by
  cases pc <;> simp [WorkerPc.awake, WorkerPc.leaving]

/-- While the queue holds a task, no worker has left its loop. -/
theorem Shutdown.not_leaving (shutdown : Shutdown n s) (nonempty : s.queue.head ≠ none) {w : Nat}
    (inRange : w < n) : (s.workers w).leaving = false := by
  rw [← Bool.not_eq_true]
  exact fun leaving => nonempty (shutdown.leaving w inRange leaving).2

/-- A worker that is not out is one of the `n`. -/
theorem Shutdown.lt_of_ne_exited (shutdown : Shutdown n s) {w : Nat}
    (inLoop : s.workers w ≠ .exited) : w < n := by
  apply Nat.lt_of_not_le
  intro outside
  exact inLoop (shutdown.beyond w outside)

theorem Wakeful.act (wakeful : Wakeful n s) (shutdown : Shutdown n s) (positive : 0 < n)
    (at_ : s.At event) (ready : s.Ready n event) : Wakeful n (s.act event) := by
  intro nonempty
  -- worker `w` is awake after the event
  have wakes : ∀ {w : Nat} {pc : WorkerPc}, s.workers w ≠ .exited → pc.awake = true →
      ∃ v < n, (Function.update s.workers w pc v).awake = true := by
    intro w pc inLoop awake
    refine ⟨w, shutdown.lt_of_ne_exited inLoop, ?_⟩
    rw [Function.update_self]
    exact awake
  have inLoop : ∀ {w : Nat} {pc : WorkerPc}, s.workers w = pc → pc ≠ .exited →
      s.workers w ≠ .exited := by
    intro w pc here notExited
    rw [here]
    exact notExited
  cases event with
  | submitEnqueue t task =>
      refine .inr (.inl ⟨t, ?_⟩)
      change (Function.update s.submits t (.unlock task) t).entered = true
      rw [Function.update_self]
      rfl
  | submitUnlock t task =>
      refine .inr (.inl ⟨t, ?_⟩)
      change (Function.update s.submits t (.signal task) t).entered = true
      rw [Function.update_self]
      rfl
  | submitSignal t task woken => exact .inl (wakes (inLoop ready (by simp)) rfl)
  | submitSignalUnheard t task =>
      refine .inl ⟨0, positive, (WorkerPc.awake_iff _).mpr ⟨ready 0 positive, ?_⟩⟩
      exact shutdown.not_leaving nonempty positive
  | workerLock w => exact .inl (wakes (inLoop at_ (by simp)) rfl)
  | workerWait w => exact absurd ready.1 nonempty
  | workerLeave w => exact absurd ready.1 nonempty
  | workerTake w task => exact .inl (wakes (inLoop at_ (by simp)) rfl)
  | workerUnlockExit w =>
      -- the worker saw an empty queue, and nothing has entered it since
      have here : s.workers w = .unlockExit := at_
      have inRange := shutdown.lt_of_ne_exited (inLoop here (by simp))
      exact absurd (shutdown.leaving w inRange (by rw [here]; rfl)).2 nonempty
  | workerUnlockRun w task => exact .inl (wakes (inLoop at_ (by simp)) rfl)
  | workerCall w task => exact .inl (wakes (inLoop at_ (by simp)) rfl)
  | workerReturn w task => exact .inl (wakes (inLoop at_ (by simp)) rfl)
  | workerSpurious w => exact .inl (wakes (inLoop at_ (by simp)) rfl)
  | destroyFlag => exact .inr (.inr rfl)
  | destroyUnlock => exact .inr (.inr rfl)
  | destroyBroadcast =>
      refine .inl ⟨0, positive, ?_⟩
      have inLoop := shutdown.not_leaving nonempty positive
      dsimp only [PoolState.act]
      split
      · rfl
      · rename_i notAsleep
        exact (WorkerPc.awake_iff _).mpr ⟨notAsleep, inLoop⟩
  | submitCall | submitAllocate | submitNoMemory | submitLock | submitCheck | submitRefuse =>
      -- a thread that has not entered the queue goes on
      dsimp only [PoolState.At, PoolState.act] at at_ nonempty ⊢
      rcases wakeful nonempty with awake | ⟨t, entered⟩ | mustWake
      · exact .inl awake
      · exact .inr (.inl ⟨t, by grind⟩)
      · exact .inr (.inr mustWake)
  | destroyCall | destroyLock | destroyJoin | destroyJoined | destroyDrain | destroyFree =>
      -- the destroyer has not set the flag, or has woken the workers
      dsimp only [PoolState.At, PoolState.act] at at_ nonempty ⊢
      rcases wakeful nonempty with awake | entered | mustWake
      · exact .inl awake
      · exact .inr (.inl entered)
      · rw [at_] at mustWake
        cases mustWake

theorem wakeful_of_reachable (positive : 0 < n) (reachable : Reachable n s) : Wakeful n s := by
  induction reachable with
  | created => exact fun nonempty => absurd rfl nonempty
  | step reachable step inductionHypothesis =>
      have shutdown := (poolInvariant_of_reachable positive reachable).shutdown
      cases step with
      | act at_ ready alive => exact inductionHypothesis.act shutdown positive at_ ready
      | fault at_ touches freed => exact inductionHypothesis

end Steps

/-- What no lost wake-up means, in a state of a run. -/
structure NoLostWakeup (n : Nat) (s : PoolState) : Prop where
  /-- If every live worker is asleep while a task is queued, a submit has
  enqueued and not yet signalled, or destroy has set the flag and not yet
  broadcast. -/
  pending : s.queue.head ≠ none →
    (∀ w < n, s.workers w = .asleep ∨ s.workers w = .exited) →
    (∃ t task, s.submits t = .unlock task ∨ s.submits t = .signal task) ∨
      s.destroyer = .unlock ∨ s.destroyer = .broadcast
  /-- Once the flag is set and the broadcast issued, no worker is asleep. -/
  broadcasted : s.shuttingDown = true → s.destroyer ≠ .unlock → s.destroyer ≠ .broadcast →
    ∀ w < n, s.workers w ≠ .asleep
  /-- The pool does not hang: with a task queued or a shutdown under way, and
  every other thread done or waiting for the workers, some worker is not
  asleep. -/
  alive : s.queue.head ≠ none ∨ s.shuttingDown = true → (∀ t, s.submits t = .idle) →
    s.destroyer ≠ .unlock → s.destroyer ≠ .broadcast → ∃ w < n, s.workers w ≠ .asleep

/-- No wake-up is lost in any run, for any number of workers and of submitting
threads. -/
theorem threadPool_noLostWakeup {n : Nat} {s : PoolState} (positive : 0 < n)
    (reachable : Reachable n s) : NoLostWakeup n s := by
  have shutdown := (poolInvariant_of_reachable positive reachable).shutdown
  have wakeful := wakeful_of_reachable positive reachable
  have noneAsleep : s.shuttingDown = true → s.destroyer ≠ .unlock → s.destroyer ≠ .broadcast →
      ∀ w < n, s.workers w ≠ .asleep := by
    intro flag notUnlock notBroadcast w _
    apply shutdown.awake
    have flagged := shutdown.flag.symm.trans flag
    cases pc : s.destroyer with
    | unlock => exact absurd pc notUnlock
    | broadcast => exact absurd pc notBroadcast
    | idle | lock | flag =>
        rw [pc] at flagged
        cases flagged
    | _ => rfl
  constructor
  · intro nonempty allAsleep
    rcases wakeful nonempty with ⟨w, inRange, awake⟩ | ⟨t, entered⟩ | mustWake
    · rcases allAsleep w inRange with asleep | exited
      · rw [asleep] at awake
        cases awake
      · rw [exited] at awake
        cases awake
    · left
      cases pc : s.submits t with
      | unlock task => exact ⟨t, task, .inl pc⟩
      | signal task => exact ⟨t, task, .inr pc⟩
      | _ =>
          rw [pc] at entered
          cases entered
    · right
      cases pc : s.destroyer with
      | unlock => exact .inl rfl
      | broadcast => exact .inr rfl
      | _ =>
          rw [pc] at mustWake
          cases mustWake
  · exact noneAsleep
  · intro work idle notUnlock notBroadcast
    rcases work with nonempty | flag
    · rcases wakeful nonempty with ⟨w, inRange, awake⟩ | ⟨t, entered⟩ | mustWake
      · refine ⟨w, inRange, ?_⟩
        intro asleep
        rw [asleep] at awake
        cases awake
      · rw [idle t] at entered
        cases entered
      · cases pc : s.destroyer with
        | unlock => exact absurd pc notUnlock
        | broadcast => exact absurd pc notBroadcast
        | _ =>
            rw [pc] at mustWake
            cases mustWake
    · exact ⟨0, positive, noneAsleep flag notUnlock notBroadcast 0 positive⟩

/-- A worker that slept while a task came in. -/
theorem threadPool_noLostWakeup_asleep :
    ∃ s, (PoolState.created 1).runEvents 1
        ([.workerLock 0, .workerWait 0] ++ (submitEvents (.client 0) 0).take 6) = some s ∧
      s.workers 0 = .asleep ∧ s.queue.head = some 0 ∧ NoLostWakeup 1 s := by
  have runs : (((PoolState.created 1).runEvents 1
      ([.workerLock 0, .workerWait 0] ++ (submitEvents (.client 0) 0).take 6)).map
        fun s => (s.workers 0, s.queue.head)) = some (.asleep, some 0) := by
    decide
  obtain ⟨s, run, state⟩ := Option.map_eq_some_iff.mp runs
  obtain ⟨asleep, queued⟩ := Prod.mk.inj state
  exact ⟨s, run, asleep, queued,
    threadPool_noLostWakeup (by decide) (Reachable.created.runEvents run)⟩

end Dotten
