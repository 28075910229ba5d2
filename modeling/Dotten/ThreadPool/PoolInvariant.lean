/-
Module: Dotten.ThreadPool.PoolInvariant
Layer: ThreadPool
Purpose: What holds of the threads of a pool in every reachable state: who is
  inside the lock, and how far a shutdown has come.
Imports: Dotten.ThreadPool.TenThreadPool
Main exports: Exclusive, Exclusive.act, Shutdown, Shutdown.act
-/
import Dotten.ThreadPool.TenThreadPool

namespace Dotten

open Dotten.Library

/-- The thread holds the lock. -/
def SubmitPc.inside : SubmitPc → Bool
  | .check _ | .enqueue _ | .unlock _ | .refuse _ => true
  | _ => false

/-- The worker holds the lock. -/
def WorkerPc.inside : WorkerPc → Bool
  | .test | .unlockExit | .unlockRun _ => true
  | _ => false

/-- The worker has left its loop. -/
def WorkerPc.leaving : WorkerPc → Bool
  | .unlockExit | .exited => true
  | _ => false

/-- The destroyer holds the lock. -/
def DestroyPc.inside : DestroyPc → Bool
  | .flag | .unlock => true
  | _ => false

/-- The destroyer has set the flag. -/
def DestroyPc.flagged : DestroyPc → Bool
  | .idle | .lock | .flag => false
  | _ => true

/-- The destroyer has woken the workers. -/
def DestroyPc.broadcasted : DestroyPc → Bool
  | .join _ | .drain _ | .done => true
  | _ => false

/-- The number of workers that have been joined, in a pool of `n`. -/
def DestroyPc.joined (n : Nat) : DestroyPc → Nat
  | .join i => i
  | .drain _ | .done => n
  | _ => 0

/-- Mutual exclusion: whoever is inside holds the lock.  A worker submits only
while it runs a task, when it is not inside itself. -/
structure Exclusive (s : PoolState) : Prop where
  submits : ∀ t, (s.submits t).inside = true → s.owner = some (.thread t)
  workers : ∀ w, (s.workers w).inside = true → s.owner = some (.thread (.worker w))
  destroyer : s.destroyer.inside = true → s.owner = some .destroyer
  nested : ∀ w, s.submits (.worker w) ≠ .idle → (s.workers w).isRunning = true

section Steps

variable {n : Nat} {s s' : PoolState} {event : PoolEvent}

theorem not_inside_of_isRunning {pc : WorkerPc} (running : pc.isRunning = true) :
    pc.inside = false := by
  cases pc with
  | running task => rfl
  | _ => cases running

theorem exclusive_created (n : Nat) : Exclusive (.created n) where
  submits t inside := by cases inside
  workers w inside := by
    simp only [PoolState.created] at inside
    split at inside <;> cases inside
  destroyer inside := by cases inside
  nested w busy := absurd rfl busy

attribute [local grind =] Function.update_apply

attribute [local grind] SubmitPc.inside WorkerPc.inside DestroyPc.inside WorkerPc.isRunning
  PoolState.mayCall

/-- Who acquires the lock finds it free, and who releases it was its holder. -/
theorem Exclusive.act_submits (exclusive : Exclusive s) (at_ : s.At event)
    (ready : s.Ready n event) :
    ∀ t, ((s.act event).submits t).inside = true →
      (s.act event).owner = some (.thread t) := by
  have submits := exclusive.submits
  have workers := exclusive.workers
  have destroyer := exclusive.destroyer
  have nested := exclusive.nested
  intro t inside
  cases event with
  | submitCall | submitAllocate | submitNoMemory | submitLock | submitCheck | submitEnqueue
  | submitUnlock | submitSignal | submitSignalUnheard | submitRefuse | workerLock | workerWait
  | workerUnlockExit | workerUnlockRun | destroyLock | destroyUnlock =>
    dsimp only [PoolState.At, PoolState.Ready, PoolState.act] at at_ ready inside ⊢
    grind -ring -linarith -order -ac
  | _ => exact submits t inside

theorem Exclusive.act_workers (exclusive : Exclusive s) (at_ : s.At event)
    (ready : s.Ready n event) :
    ∀ w, ((s.act event).workers w).inside = true →
      (s.act event).owner = some (.thread (.worker w)) := by
  have submits := exclusive.submits
  have workers := exclusive.workers
  have destroyer := exclusive.destroyer
  have nested := exclusive.nested
  intro w inside
  cases event with
  | submitLock | submitUnlock | submitSignal | submitRefuse | workerLock | workerWait
  | workerLeave | workerTake | workerUnlockExit | workerUnlockRun | workerCall | workerReturn
  | workerSpurious | destroyLock | destroyUnlock | destroyBroadcast =>
    dsimp only [PoolState.At, PoolState.Ready, PoolState.act] at at_ ready inside ⊢
    grind -ring -linarith -order -ac [not_inside_of_isRunning]
  | _ => exact workers w inside

theorem Exclusive.act_destroyer (exclusive : Exclusive s) (at_ : s.At event)
    (ready : s.Ready n event) :
    (s.act event).destroyer.inside = true →
      (s.act event).owner = some .destroyer := by
  have submits := exclusive.submits
  have workers := exclusive.workers
  have destroyer := exclusive.destroyer
  intro inside
  cases event with
  | destroyLock => rfl
  | submitLock | submitUnlock | submitRefuse | workerLock | workerWait | workerUnlockExit
  | workerUnlockRun | destroyFlag | destroyUnlock | destroyCall | destroyBroadcast | destroyJoin
  | destroyJoined | destroyDrain | destroyFree =>
    dsimp only [PoolState.At, PoolState.Ready, PoolState.act] at at_ ready inside ⊢
    grind -ring -linarith -order -ac
  | _ => exact destroyer inside

theorem Exclusive.act_nested (exclusive : Exclusive s) (at_ : s.At event)
    (ready : s.Ready n event) :
    ∀ w, (s.act event).submits (.worker w) ≠ .idle →
      ((s.act event).workers w).isRunning = true := by
  have nested := exclusive.nested
  intro w busy
  cases event with
  | destroyCall | destroyLock | destroyFlag | destroyUnlock | destroyJoin | destroyJoined
  | destroyDrain | destroyFree => exact nested w busy
  | _ =>
    dsimp only [PoolState.At, PoolState.Ready, PoolState.act] at at_ ready busy ⊢
    grind -ring -linarith -order -ac

theorem Exclusive.act (exclusive : Exclusive s) (at_ : s.At event) (ready : s.Ready n event) :
    Exclusive (s.act event) where
  submits := exclusive.act_submits at_ ready
  workers := exclusive.act_workers at_ ready
  destroyer := exclusive.act_destroyer at_ ready
  nested := exclusive.act_nested at_ ready

/-- How far a shutdown has come. -/
structure Shutdown (n : Nat) (s : PoolState) : Prop where
  flag : s.shuttingDown = s.destroyer.flagged
  /-- Nobody is about to enqueue once the flag is set. -/
  enqueueing : ∀ t task, s.submits t = .enqueue task → s.shuttingDown = false
  /-- A worker leaves its loop when the flag is set and the queue is empty. -/
  leaving : ∀ w < n, (s.workers w).leaving = true → s.shuttingDown = true ∧ s.queue.head = none
  beyond : ∀ w, n ≤ w → s.workers w = .exited
  awake : s.destroyer.broadcasted = true → ∀ w, s.workers w ≠ .asleep
  joined : ∀ w < s.destroyer.joined n, s.workers w = .exited
  joinedLe : s.destroyer.joined n ≤ n
  drained : ∀ cursor, s.destroyer = .drain cursor → cursor = none
  freed : s.freed = true ↔ s.destroyer = .done

theorem shutdown_created (n : Nat) : Shutdown n (.created n) where
  flag := rfl
  enqueueing t task here := by cases here
  leaving w inRange leaving := by
    simp only [PoolState.created, if_pos inRange] at leaving
    cases leaving
  beyond w outside := if_neg (Nat.not_lt.mpr outside)
  awake broadcasted := by cases broadcasted
  joined w below := absurd below (Nat.not_lt_zero w)
  joinedLe := Nat.zero_le n
  drained cursor here := by cases here
  freed := by simp [PoolState.created]

attribute [local grind] WorkerPc.leaving DestroyPc.flagged DestroyPc.broadcasted DestroyPc.joined
  LinkedQueue.dequeue

theorem flagged_of_broadcasted {pc : DestroyPc} (broadcasted : pc.broadcasted = true) :
    pc.flagged = true := by
  cases pc with
  | join _ | drain _ | done => rfl
  | _ => cases broadcasted

theorem Shutdown.act_flag (shutdown : Shutdown n s) (at_ : s.At event) :
    (s.act event).shuttingDown = (s.act event).destroyer.flagged := by
  have flag := shutdown.flag
  cases event with
  | destroyCall | destroyLock | destroyFlag | destroyUnlock | destroyBroadcast | destroyJoin
  | destroyJoined | destroyDrain | destroyFree =>
    dsimp only [PoolState.At, PoolState.act] at at_ ⊢
    grind -ring -linarith -order -ac
  | _ => exact flag

theorem Shutdown.act_enqueueing (shutdown : Shutdown n s) (exclusive : Exclusive s)
    (at_ : s.At event) :
    ∀ t task, (s.act event).submits t = .enqueue task → (s.act event).shuttingDown = false := by
  have enqueueing := shutdown.enqueueing
  intro t task here
  cases event with
  | destroyFlag =>
      -- the destroyer is inside, so nobody else is
      have submitting : s.submits t = .enqueue task := here
      have flagging : s.destroyer = .flag := at_
      have submitOwner := exclusive.submits t (by rw [submitting]; rfl)
      have destroyOwner := exclusive.destroyer (by rw [flagging]; rfl)
      rw [submitOwner] at destroyOwner
      cases destroyOwner
  | submitCall | submitAllocate | submitNoMemory | submitLock | submitCheck | submitEnqueue
  | submitUnlock | submitSignal | submitSignalUnheard | submitRefuse =>
    dsimp only [PoolState.At, PoolState.act] at at_ here ⊢
    grind -ring -linarith -order -ac
  | _ => exact enqueueing t task here

theorem Shutdown.act_leaving (shutdown : Shutdown n s) (at_ : s.At event)
    (ready : s.Ready n event) :
    ∀ w < n, ((s.act event).workers w).leaving = true →
      (s.act event).shuttingDown = true ∧ (s.act event).queue.head = none := by
  have leaving := shutdown.leaving
  have enqueueing := shutdown.enqueueing
  intro w inRange left
  cases event with
  | submitEnqueue | submitSignal | workerLock | workerWait | workerLeave | workerTake
  | workerUnlockExit | workerUnlockRun | workerCall | workerReturn | workerSpurious
  | destroyFlag | destroyBroadcast =>
    dsimp only [PoolState.At, PoolState.Ready, PoolState.act] at at_ ready left ⊢
    grind -ring -linarith -order -ac
  | _ => exact leaving w inRange left

theorem Shutdown.act_beyond (shutdown : Shutdown n s) (at_ : s.At event)
    (ready : s.Ready n event) :
    ∀ w, n ≤ w → (s.act event).workers w = .exited := by
  have beyond := shutdown.beyond
  intro w outside
  cases event with
  | submitSignal | workerLock | workerWait | workerLeave | workerTake
  | workerUnlockExit | workerUnlockRun | workerCall | workerReturn | workerSpurious
  | destroyBroadcast =>
    dsimp only [PoolState.At, PoolState.Ready, PoolState.act] at at_ ready ⊢
    grind -ring -linarith -order -ac
  | _ => exact beyond w outside

theorem Shutdown.act_awake (shutdown : Shutdown n s) (at_ : s.At event)
    (ready : s.Ready n event) :
    (s.act event).destroyer.broadcasted = true → ∀ w, (s.act event).workers w ≠ .asleep := by
  have awake := shutdown.awake
  have flag := shutdown.flag
  intro broadcasted w
  cases event with
  | workerWait other =>
      -- a worker waits only while the flag is not set
      have set := flag.trans (flagged_of_broadcasted broadcasted)
      rw [ready.2] at set
      cases set
  | submitSignal | workerLock | workerLeave | workerTake | workerUnlockExit
  | workerUnlockRun | workerCall | workerReturn | workerSpurious | destroyCall | destroyLock
  | destroyFlag | destroyUnlock | destroyBroadcast | destroyJoin | destroyJoined | destroyDrain
  | destroyFree =>
    dsimp only [PoolState.At, PoolState.act] at at_ broadcasted ⊢
    grind -ring -linarith -order -ac
  | _ => exact awake broadcasted w

theorem Shutdown.act_joined (shutdown : Shutdown n s) (at_ : s.At event)
    (ready : s.Ready n event) :
    ∀ w < (s.act event).destroyer.joined n, (s.act event).workers w = .exited := by
  have joined := shutdown.joined
  intro w below
  cases event with
  | submitSignal | workerLock | workerWait | workerLeave | workerTake | workerUnlockExit
  | workerUnlockRun | workerCall | workerReturn | workerSpurious | destroyCall | destroyLock
  | destroyFlag | destroyUnlock | destroyBroadcast | destroyJoin | destroyJoined | destroyDrain
  | destroyFree =>
    dsimp only [PoolState.At, PoolState.Ready, PoolState.act] at at_ ready below ⊢
    grind -ring -linarith -order -ac
  | _ => exact joined w below

theorem Shutdown.act_joinedLe (shutdown : Shutdown n s) (at_ : s.At event)
    (ready : s.Ready n event) :
    (s.act event).destroyer.joined n ≤ n := by
  have joinedLe := shutdown.joinedLe
  cases event with
  | destroyCall | destroyLock | destroyFlag | destroyUnlock | destroyBroadcast | destroyJoin
  | destroyJoined | destroyDrain | destroyFree =>
    dsimp only [PoolState.At, PoolState.Ready, PoolState.act] at at_ ready ⊢
    grind -ring -linarith -order -ac
  | _ => exact joinedLe

theorem Shutdown.act_drained (shutdown : Shutdown n s) (positive : 0 < n) (at_ : s.At event)
    (ready : s.Ready n event) :
    ∀ cursor, (s.act event).destroyer = .drain cursor → cursor = none := by
  have drained := shutdown.drained
  have joined := shutdown.joined
  have leaving := shutdown.leaving
  intro cursor here
  cases event with
  | destroyJoined i =>
      -- the first worker has left its loop, so the queue is empty
      cases here
      have exited := joined 0 (by
        change s.destroyer = _ at at_
        rw [at_, ready]
        exact positive)
      exact (leaving 0 positive (by rw [exited]; rfl)).2
  | destroyCall | destroyLock | destroyFlag | destroyUnlock | destroyBroadcast | destroyJoin
  | destroyDrain | destroyFree =>
    dsimp only [PoolState.At, PoolState.act] at at_ here
    grind -ring -linarith -order -ac
  | _ => exact drained cursor here

theorem Shutdown.act_freed (shutdown : Shutdown n s) (at_ : s.At event) :
    (s.act event).freed = true ↔ (s.act event).destroyer = .done := by
  have freed := shutdown.freed
  cases event with
  | destroyCall | destroyLock | destroyFlag | destroyUnlock | destroyBroadcast | destroyJoin
  | destroyJoined | destroyDrain | destroyFree =>
    dsimp only [PoolState.At, PoolState.act] at at_ ⊢
    grind -ring -linarith -order -ac
  | _ => exact freed

theorem Shutdown.act (shutdown : Shutdown n s) (exclusive : Exclusive s) (positive : 0 < n)
    (at_ : s.At event) (ready : s.Ready n event) : Shutdown n (s.act event) where
  flag := shutdown.act_flag at_
  enqueueing := shutdown.act_enqueueing exclusive at_
  leaving := shutdown.act_leaving at_ ready
  beyond := shutdown.act_beyond at_ ready
  awake := shutdown.act_awake at_ ready
  joined := shutdown.act_joined at_ ready
  joinedLe := shutdown.act_joinedLe at_ ready
  drained := shutdown.act_drained positive at_ ready
  freed := shutdown.act_freed at_

end Steps

end Dotten
