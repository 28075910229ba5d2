/-
Module: Dotten.ThreadPool.TenThreadPool
Layer: ThreadPool
Purpose: The thread pool of thread_pool.c as a transition system: one event for
  every statement of submit, worker and destroy that touches the pool, in any
  interleaving, with the history that its promises are about.
Imports: Dotten.Library.LinkedQueue, Dotten.Core.World
Main exports: Thread, SubmitPc, WorkerPc, DestroyPc, PoolState, PoolEvent,
  PoolState.At, PoolState.Ready, PoolState.act, PoolStep, Reachable,
  PoolState.runEvents
-/
import Dotten.Library.LinkedQueue
import Dotten.Core.World
import Mathlib.Logic.Relation

namespace Dotten

open Dotten.Library

/-- A thread that may submit: a worker, from the task it runs, or any other
thread. -/
inductive Thread where
  | worker (w : Nat)
  | client (c : Nat)
deriving DecidableEq, Repr

/-- Who holds `pool->lock`. -/
inductive Holder where
  | thread (t : Thread)
  | destroyer
deriving DecidableEq, Repr

/-- A `ten_task_t`.  Calls of submit are numbered, and the node that a call
allocates has the number of the call. -/
abbrev Task := Nat

/-- Where a thread stands in `ten_thread_pool_submit`. -/
inductive SubmitPc where
  | idle
  | allocate (task : Task)
  | lock (task : Task)
  | check (task : Task)
  | enqueue (task : Task)
  | unlock (task : Task)
  | signal (task : Task)
  | refuse (task : Task)
deriving DecidableEq, Repr

/-- Where a worker stands in `ten__thread_pool_worker`.  A worker that is woken
goes back to `lock`, since `ten_cond_wait` returns with the lock held and the
condition is tested again. -/
inductive WorkerPc where
  | lock
  | test
  | asleep
  | unlockExit
  | exited
  | unlockRun (task : Task)
  | call (task : Task)
  | running (task : Task)
deriving DecidableEq, Repr

/-- The worker is in the function of a task. -/
def WorkerPc.isRunning : WorkerPc → Bool
  | .running _ => true
  | _ => false

/-- Where the thread that destroys the pool stands in
`ten_thread_pool_destroy`. -/
inductive DestroyPc where
  | idle
  | lock
  | flag
  | unlock
  | broadcast
  | join (i : Nat)
  | drain (task : Option Task)
  | done
deriving DecidableEq, Repr

/-- The pool, its threads and the history. -/
structure PoolState where
  workers : Nat → WorkerPc
  submits : Thread → SubmitPc
  destroyer : DestroyPc
  /-- The holder of `pool->lock`. -/
  owner : Option Holder
  /-- `queue_head`, `queue_tail` and the links of the nodes. -/
  queue : LinkedQueue Task
  shuttingDown : Bool
  /-- `ten_free(pool)` has been called. -/
  freed : Bool
  /-- A thread has used the freed pool. -/
  faulted : Bool
  /-- The number of calls of submit so far. -/
  calls : Nat
  /-- The calls that acquired the lock, in this order. -/
  acquired : List Task
  /-- The tasks that entered the queue, in this order. -/
  enqueued : List Task
  /-- The tasks that left the queue to be run, in this order. -/
  taken : List Task
  /-- The tasks whose function was called, and those it returned from. -/
  started : List Task
  finished : List Task
  /-- The tasks that destroy freed without running them. -/
  discarded : List Task
  /-- What the calls of submit returned. -/
  results : Task → Option TenErrorCode

/-- A pool of `n` workers that `ten_thread_pool_create` returned; there are no
other workers. -/
def PoolState.created (n : Nat) : PoolState where
  workers w := if w < n then .lock else .exited
  submits _ := .idle
  destroyer := .idle
  owner := none
  queue := LinkedQueue.empty
  shuttingDown := false
  freed := false
  faulted := false
  calls := 0
  acquired := []
  enqueued := []
  taken := []
  started := []
  finished := []
  discarded := []
  results _ := none

/-- One step of one thread. -/
inductive PoolEvent where
  | submitCall (t : Thread)
  | submitAllocate (t : Thread) (task : Task)
  | submitNoMemory (t : Thread) (task : Task)
  | submitLock (t : Thread) (task : Task)
  | submitCheck (t : Thread) (task : Task)
  | submitEnqueue (t : Thread) (task : Task)
  | submitUnlock (t : Thread) (task : Task)
  | submitSignal (t : Thread) (task : Task) (woken : Nat)
  | submitSignalUnheard (t : Thread) (task : Task)
  | submitRefuse (t : Thread) (task : Task)
  | workerLock (w : Nat)
  | workerWait (w : Nat)
  | workerLeave (w : Nat)
  | workerTake (w : Nat) (task : Task)
  | workerUnlockExit (w : Nat)
  | workerUnlockRun (w : Nat) (task : Task)
  | workerCall (w : Nat) (task : Task)
  | workerReturn (w : Nat) (task : Task)
  | workerSpurious (w : Nat)
  | destroyCall
  | destroyLock
  | destroyFlag
  | destroyUnlock
  | destroyBroadcast
  | destroyJoin (i : Nat)
  | destroyJoined (i : Nat)
  | destroyDrain (task : Task)
  | destroyFree
deriving DecidableEq, Repr

/-- The step reads or writes the pool, its lock or its condition variable. -/
def PoolEvent.touchesPool : PoolEvent → Bool
  | .submitCall _ | .submitAllocate _ _ | .submitNoMemory _ _ => false
  | .workerCall _ _ | .workerReturn _ _ => false
  | .destroyCall => false
  | _ => true

namespace PoolState

/-- The thread of the event stands where the event takes it on. -/
def At (s : PoolState) : PoolEvent → Prop
  | .submitCall t => s.submits t = .idle
  | .submitAllocate t task => s.submits t = .allocate task
  | .submitNoMemory t task => s.submits t = .allocate task
  | .submitLock t task => s.submits t = .lock task
  | .submitCheck t task => s.submits t = .check task
  | .submitEnqueue t task => s.submits t = .enqueue task
  | .submitUnlock t task => s.submits t = .unlock task
  | .submitSignal t task _ => s.submits t = .signal task
  | .submitSignalUnheard t task => s.submits t = .signal task
  | .submitRefuse t task => s.submits t = .refuse task
  | .workerLock w => s.workers w = .lock
  | .workerWait w => s.workers w = .test
  | .workerLeave w => s.workers w = .test
  | .workerTake w _ => s.workers w = .test
  | .workerUnlockExit w => s.workers w = .unlockExit
  | .workerUnlockRun w task => s.workers w = .unlockRun task
  | .workerCall w task => s.workers w = .call task
  | .workerReturn w task => s.workers w = .running task
  | .workerSpurious w => s.workers w = .asleep
  | .destroyCall => s.destroyer = .idle
  | .destroyLock => s.destroyer = .lock
  | .destroyFlag => s.destroyer = .flag
  | .destroyUnlock => s.destroyer = .unlock
  | .destroyBroadcast => s.destroyer = .broadcast
  | .destroyJoin i => s.destroyer = .join i
  | .destroyJoined i => s.destroyer = .join i
  | .destroyDrain task => s.destroyer = .drain (some task)
  | .destroyFree => s.destroyer = .drain none

/-- The thread can call `ten_thread_pool_submit`: a worker only from a task. -/
def mayCall (s : PoolState) : Thread → Bool
  | .worker w => (s.workers w).isRunning
  | .client _ => true

/-- What else the event needs, in a pool of `n` workers: a free lock, a branch
that is taken, a thread to wake or to join. -/
def Ready (n : Nat) (s : PoolState) : PoolEvent → Prop
  | .submitCall t => s.mayCall t = true
  | .submitLock _ _ => s.owner = none
  | .submitSignal _ _ woken => s.workers woken = .asleep
  | .submitSignalUnheard _ _ => ∀ w < n, s.workers w ≠ .asleep
  | .workerLock _ => s.owner = none
  | .workerWait _ => s.queue.head = none ∧ s.shuttingDown = false
  | .workerLeave _ => s.queue.head = none ∧ s.shuttingDown = true
  | .workerTake _ task => s.queue.head = some task
  | .workerReturn w _ => s.submits (.worker w) = .idle
  | .destroyLock => s.owner = none
  | .destroyJoin i => i < n ∧ s.workers i = .exited
  | .destroyJoined i => i = n
  | _ => True

instance (s : PoolState) (event : PoolEvent) : Decidable (s.At event) := by
  cases event <;> unfold At <;> infer_instance

instance (n : Nat) (s : PoolState) (event : PoolEvent) : Decidable (s.Ready n event) := by
  unfold Ready
  split <;> infer_instance

/-- The effect of the event on a pool that has not been freed. -/
def act (s : PoolState) : PoolEvent → PoolState
  | .submitCall t =>
      { s with
        submits := Function.update s.submits t (.allocate s.calls)
        calls := s.calls + 1 }
  | .submitAllocate t task => { s with submits := Function.update s.submits t (.lock task) }
  | .submitNoMemory t task =>
      { s with
        submits := Function.update s.submits t .idle
        results := Function.update s.results task (some .outOfMemory) }
  | .submitLock t task =>
      { s with
        owner := some (.thread t)
        submits := Function.update s.submits t (.check task)
        acquired := s.acquired ++ [task] }
  | .submitCheck t task =>
      { s with
        submits := Function.update s.submits t
          (if s.shuttingDown then .refuse task else .enqueue task) }
  | .submitEnqueue t task =>
      { s with
        queue := s.queue.enqueue task
        submits := Function.update s.submits t (.unlock task)
        enqueued := s.enqueued ++ [task] }
  | .submitUnlock t task =>
      { s with owner := none, submits := Function.update s.submits t (.signal task) }
  | .submitSignal t task woken =>
      { s with
        workers := Function.update s.workers woken .lock
        submits := Function.update s.submits t .idle
        results := Function.update s.results task (some .ok) }
  | .submitSignalUnheard t task =>
      { s with
        submits := Function.update s.submits t .idle
        results := Function.update s.results task (some .ok) }
  | .submitRefuse t task =>
      { s with
        owner := none
        submits := Function.update s.submits t .idle
        results := Function.update s.results task (some .invalidState) }
  | .workerLock w =>
      { s with
        owner := some (.thread (.worker w))
        workers := Function.update s.workers w .test }
  | .workerWait w =>
      { s with owner := none, workers := Function.update s.workers w .asleep }
  | .workerLeave w => { s with workers := Function.update s.workers w .unlockExit }
  | .workerTake w task =>
      { s with
        queue := s.queue.dequeue task
        workers := Function.update s.workers w (.unlockRun task)
        taken := s.taken ++ [task] }
  | .workerUnlockExit w =>
      { s with owner := none, workers := Function.update s.workers w .exited }
  | .workerUnlockRun w task =>
      { s with owner := none, workers := Function.update s.workers w (.call task) }
  | .workerCall w task =>
      { s with
        workers := Function.update s.workers w (.running task)
        started := s.started ++ [task] }
  | .workerReturn w task =>
      { s with
        workers := Function.update s.workers w .lock
        finished := s.finished ++ [task] }
  | .workerSpurious w => { s with workers := Function.update s.workers w .lock }
  | .destroyCall => { s with destroyer := .lock }
  | .destroyLock => { s with owner := some .destroyer, destroyer := .flag }
  | .destroyFlag => { s with shuttingDown := true, destroyer := .unlock }
  | .destroyUnlock => { s with owner := none, destroyer := .broadcast }
  | .destroyBroadcast =>
      { s with
        workers := fun w => if s.workers w = .asleep then .lock else s.workers w
        destroyer := .join 0 }
  | .destroyJoin i => { s with destroyer := .join (i + 1) }
  | .destroyJoined _ => { s with destroyer := .drain s.queue.head }
  | .destroyDrain task =>
      { s with destroyer := .drain (s.queue.next task), discarded := s.discarded ++ [task] }
  | .destroyFree => { s with freed := true, destroyer := .done }

end PoolState

/-- One step of a pool of `n` workers.  A thread that uses the freed pool has
undefined behaviour, of which the model records that it happened. -/
inductive PoolStep (n : Nat) (s : PoolState) (event : PoolEvent) : PoolState → Prop where
  | act (at_ : s.At event) (ready : s.Ready n event)
      (alive : event.touchesPool = true → s.freed = false) : PoolStep n s event (s.act event)
  | fault (at_ : s.At event) (touches : event.touchesPool = true) (freed : s.freed = true) :
      PoolStep n s event { s with faulted := true }

/-- The states of a run that starts with the creation of the pool. -/
inductive Reachable (n : Nat) : PoolState → Prop where
  | created : Reachable n (.created n)
  | step {s s' : PoolState} {event : PoolEvent} (reachable : Reachable n s)
      (step : PoolStep n s event s') : Reachable n s'

/-- The state after the given events, when each can happen on a pool that has
not been freed. -/
def PoolState.runEvents (n : Nat) : PoolState → List PoolEvent → Option PoolState
  | s, [] => some s
  | s, event :: rest =>
      if s.At event ∧ s.Ready n event ∧ (event.touchesPool = true → s.freed = false) then
        (s.act event).runEvents n rest
      else none

theorem Reachable.runEvents {n : Nat} {events : List PoolEvent} :
    ∀ {s s' : PoolState}, Reachable n s → s.runEvents n events = some s' → Reachable n s' := by
  induction events with
  | nil =>
      intro s s' reachable run
      cases run
      exact reachable
  | cons event rest inductionHypothesis =>
      intro s s' reachable run
      rw [PoolState.runEvents] at run
      split at run
      · rename_i enabled
        obtain ⟨at_, ready, alive⟩ := enabled
        exact inductionHypothesis (reachable.step (.act at_ ready alive)) run
      · cases run

/-- The events of a call of submit that is accepted while nobody sleeps. -/
def submitEvents (t : Thread) (task : Task) : List PoolEvent :=
  [.submitCall t, .submitAllocate t task, .submitLock t task, .submitCheck t task,
    .submitEnqueue t task, .submitUnlock t task, .submitSignalUnheard t task]

/-- The events of a pass of a worker's loop that finds a task. -/
def workerEvents (w : Nat) (task : Task) : List PoolEvent :=
  [.workerLock w, .workerTake w task, .workerUnlockRun w task, .workerCall w task,
    .workerReturn w task]

end Dotten
