/-
Module: Dotten.ThreadPool.PoolHistory
Layer: ThreadPool
Purpose: What holds of the tasks of a pool in every reachable state: where each
  call of submit has got to, what the queue holds, and which worker has a task.
Imports: Dotten.ThreadPool.PoolInvariant
Main exports: Numbered, Queued, Held, PoolInvariant, poolInvariant_of_reachable
-/
import Dotten.ThreadPool.PoolInvariant

namespace Dotten

open Dotten.Library

/-- The task of the call in which a thread is. -/
def SubmitPc.task? : SubmitPc → Option Task
  | .idle => none
  | .allocate task | .lock task | .check task | .enqueue task | .unlock task | .signal task
  | .refuse task => some task

/-- The call has not acquired the lock. -/
def SubmitPc.beforeLock : SubmitPc → Bool
  | .allocate _ | .lock _ => true
  | _ => false

/-- The call has put its task into the queue. -/
def SubmitPc.entered : SubmitPc → Bool
  | .unlock _ | .signal _ => true
  | _ => false

/-- The call may still put its task into the queue. -/
def SubmitPc.mayEnter : SubmitPc → Bool
  | .check _ | .enqueue _ => true
  | _ => false

/-- The task that a worker has taken and not finished. -/
def WorkerPc.task? : WorkerPc → Option Task
  | .unlockRun task | .call task | .running task => some task
  | _ => none

/-- The calls of submit: their numbers, and what each has done. -/
structure Numbered (s : PoolState) : Prop where
  bound : ∀ t task, (s.submits t).task? = some task → task < s.calls
  distinct : ∀ t t' task, (s.submits t).task? = some task → (s.submits t').task? = some task → t = t'
  pending : ∀ t task, (s.submits t).task? = some task → s.results task = none
  fresh : ∀ task, s.calls ≤ task → task ∉ s.acquired ∧ s.results task = none
  unacquired : ∀ t task, (s.submits t).task? = some task → (s.submits t).beforeLock = true →
    task ∉ s.acquired
  waiting : ∀ t task, (s.submits t).task? = some task →
    (task ∈ s.enqueued ↔ (s.submits t).entered = true)
  settled : ∀ task code, s.results task = some code → (task ∈ s.enqueued ↔ code = .ok)

/-- The tasks enter the queue in the order in which their calls acquired the
lock; the call that is inside is the last one. -/
structure Ordered (s : PoolState) : Prop where
  nodup : s.acquired.Nodup
  sublist : s.enqueued.Sublist s.acquired
  last : ∀ t task, (s.submits t).task? = some task → (s.submits t).mayEnter = true →
    ∃ before, s.acquired = before ++ [task] ∧ s.enqueued.Sublist before

/-- The queue holds the tasks that have entered it and not left it. -/
def Queued (s : PoolState) : Prop :=
  ∃ items, s.enqueued = s.taken ++ items ∧ s.queue.Represents items

/-- The tasks that have left the queue: each with one worker, or finished. -/
structure Held (s : PoolState) : Prop where
  taken : ∀ w task, (s.workers w).task? = some task → task ∈ s.taken
  distinct : ∀ w w' task, (s.workers w).task? = some task → (s.workers w').task? = some task →
    w = w'
  unstarted : ∀ w task, (s.workers w).task? = some task →
    (task ∈ s.started ↔ (s.workers w).isRunning = true)
  unfinished : ∀ w task, (s.workers w).task? = some task → task ∉ s.finished
  startedTaken : ∀ task ∈ s.started, task ∈ s.taken
  startedNodup : s.started.Nodup
  finishedNodup : s.finished.Nodup
  finishedStarted : ∀ task ∈ s.finished, task ∈ s.started
  settled : ∀ task ∈ s.taken, task ∈ s.finished ∨ ∃ w, (s.workers w).task? = some task

section Steps

variable {n : Nat} {s : PoolState} {event : PoolEvent}

attribute [local grind =] Function.update_apply

attribute [local grind] SubmitPc.task? SubmitPc.beforeLock SubmitPc.entered SubmitPc.mayEnter
  WorkerPc.task? WorkerPc.isRunning SubmitPc.inside

theorem numbered_created (n : Nat) : Numbered (.created n) where
  bound t task here := by cases here
  distinct t t' task here there := by cases here
  pending t task here := by cases here
  fresh task _ := ⟨by simp [PoolState.created], rfl⟩
  unacquired t task here := by cases here
  waiting t task here := by cases here
  settled task code here := by cases here

theorem Numbered.act_bound (numbered : Numbered s) (at_ : s.At event) :
    ∀ t task, ((s.act event).submits t).task? = some task → task < (s.act event).calls := by
  have bound := numbered.bound
  intro t task here
  cases event with
  | submitCall | submitAllocate | submitNoMemory | submitLock | submitCheck | submitEnqueue
  | submitUnlock | submitSignal | submitSignalUnheard | submitRefuse =>
    dsimp only [PoolState.At, PoolState.act] at at_ here ⊢
    grind -ring -linarith -order -ac
  | _ => exact bound t task here

theorem Numbered.act_distinct (numbered : Numbered s) (at_ : s.At event) :
    ∀ t t' task, ((s.act event).submits t).task? = some task →
      ((s.act event).submits t').task? = some task → t = t' := by
  have bound := numbered.bound
  have distinct := numbered.distinct
  intro t t' task here there
  cases event with
  | submitCall | submitAllocate | submitNoMemory | submitLock | submitCheck | submitEnqueue
  | submitUnlock | submitSignal | submitSignalUnheard | submitRefuse =>
    dsimp only [PoolState.At, PoolState.act] at at_ here there
    grind -ring -linarith -order -ac
  | _ => exact distinct t t' task here there

theorem Numbered.act_pending (numbered : Numbered s) (at_ : s.At event) :
    ∀ t task, ((s.act event).submits t).task? = some task →
      (s.act event).results task = none := by
  have distinct := numbered.distinct
  have pending := numbered.pending
  have fresh := numbered.fresh
  intro t task here
  cases event with
  | submitCall | submitAllocate | submitNoMemory | submitLock | submitCheck | submitEnqueue
  | submitUnlock | submitSignal | submitSignalUnheard | submitRefuse =>
    dsimp only [PoolState.At, PoolState.act] at at_ here ⊢
    grind -ring -linarith -order -ac
  | _ => exact pending t task here

theorem Numbered.act_fresh (numbered : Numbered s) (at_ : s.At event) :
    ∀ task, (s.act event).calls ≤ task →
      task ∉ (s.act event).acquired ∧ (s.act event).results task = none := by
  have bound := numbered.bound
  have fresh := numbered.fresh
  have unacquired := numbered.unacquired
  intro task unused
  cases event with
  | submitCall | submitAllocate | submitNoMemory | submitLock | submitCheck | submitEnqueue
  | submitUnlock | submitSignal | submitSignalUnheard | submitRefuse =>
    dsimp only [PoolState.At, PoolState.act] at at_ unused ⊢
    grind -ring -linarith -order -ac
  | _ => exact fresh task unused

theorem Numbered.act_unacquired (numbered : Numbered s) (at_ : s.At event) :
    ∀ t task, ((s.act event).submits t).task? = some task →
      ((s.act event).submits t).beforeLock = true → task ∉ (s.act event).acquired := by
  have distinct := numbered.distinct
  have fresh := numbered.fresh
  have unacquired := numbered.unacquired
  intro t task here before
  cases event with
  | submitCall | submitAllocate | submitNoMemory | submitLock | submitCheck | submitEnqueue
  | submitUnlock | submitSignal | submitSignalUnheard | submitRefuse =>
    dsimp only [PoolState.At, PoolState.act] at at_ here before ⊢
    grind -ring -linarith -order -ac
  | _ => exact unacquired t task here before

theorem Numbered.act_waiting (numbered : Numbered s) (ordered : Ordered s)
    (at_ : s.At event) :
    ∀ t task, ((s.act event).submits t).task? = some task →
      (task ∈ (s.act event).enqueued ↔ ((s.act event).submits t).entered = true) := by
  have distinct := numbered.distinct
  have fresh := numbered.fresh
  have waiting := numbered.waiting
  have known : ∀ task ∈ s.enqueued, task ∈ s.acquired := ordered.sublist.subset
  intro t task here
  cases event with
  | submitCall | submitAllocate | submitNoMemory | submitLock | submitCheck | submitEnqueue
  | submitUnlock | submitSignal | submitSignalUnheard | submitRefuse =>
    dsimp only [PoolState.At, PoolState.act] at at_ here ⊢
    grind -ring -linarith -order -ac
  | _ => exact waiting t task here

theorem Numbered.act_settled (numbered : Numbered s) (at_ : s.At event) :
    ∀ task code, (s.act event).results task = some code →
      (task ∈ (s.act event).enqueued ↔ code = .ok) := by
  have pending := numbered.pending
  have waiting := numbered.waiting
  have settled := numbered.settled
  intro task code result
  cases event with
  | submitCall | submitAllocate | submitNoMemory | submitLock | submitCheck | submitEnqueue
  | submitUnlock | submitSignal | submitSignalUnheard | submitRefuse =>
    dsimp only [PoolState.At, PoolState.act] at at_ result ⊢
    grind -ring -linarith -order -ac
  | _ => exact settled task code result

theorem Numbered.act (numbered : Numbered s) (ordered : Ordered s) (at_ : s.At event) :
    Numbered (s.act event) where
  bound := numbered.act_bound at_
  distinct := numbered.act_distinct at_
  pending := numbered.act_pending at_
  fresh := numbered.act_fresh at_
  unacquired := numbered.act_unacquired at_
  waiting := numbered.act_waiting ordered at_
  settled := numbered.act_settled at_

theorem ordered_created (n : Nat) : Ordered (.created n) where
  nodup := List.nodup_nil
  sublist := List.Sublist.refl _
  last t task here := by cases here

/-- Whoever may still enter the queue is inside the lock. -/
theorem inside_of_mayEnter {pc : SubmitPc} (mayEnter : pc.mayEnter = true) : pc.inside = true := by
  cases pc with
  | check _ | enqueue _ => rfl
  | _ => cases mayEnter

theorem Ordered.act (ordered : Ordered s) (numbered : Numbered s) (exclusive : Exclusive s)
    (at_ : s.At event) (ready : s.Ready n event) : Ordered (s.act event) := by
  obtain ⟨nodup, sublist, last⟩ := ordered
  constructor
  · cases event with
    | submitLock t task =>
        have here : s.submits t = .lock task := at_
        have unacquired := numbered.unacquired t task (by rw [here]; rfl) (by rw [here]; rfl)
        change (s.acquired ++ [task]).Nodup
        rw [← List.concat_eq_append]
        exact nodup.concat unacquired
    | _ => exact nodup
  · cases event with
    | submitLock t task => exact sublist.trans (List.sublist_append_left _ _)
    | submitEnqueue t task =>
        have here : s.submits t = .enqueue task := at_
        obtain ⟨before, acquired, earlier⟩ :=
          last t task (by rw [here]; rfl) (by rw [here]; rfl)
        change (s.enqueued ++ [task]).Sublist s.acquired
        rw [acquired]
        exact earlier.append (List.Sublist.refl _)
    | _ => exact sublist
  · intro t task here mayEnter
    cases event with
    | submitLock other task' =>
        dsimp only [PoolState.At, PoolState.Ready, PoolState.act] at at_ ready here mayEnter ⊢
        by_cases same : t = other
        · subst same
          rw [Function.update_self] at here
          cases here
          exact ⟨s.acquired, rfl, sublist⟩
        · -- the lock was free, so nobody else was inside
          rw [Function.update_of_ne same] at mayEnter
          have owner := exclusive.submits t (inside_of_mayEnter mayEnter)
          rw [ready] at owner
          cases owner
    | submitEnqueue other task' =>
        dsimp only [PoolState.At, PoolState.act] at at_ here mayEnter ⊢
        by_cases same : t = other
        · subst same
          rw [Function.update_self] at mayEnter
          cases mayEnter
        · rw [Function.update_of_ne same] at mayEnter
          have owner := exclusive.submits t (inside_of_mayEnter mayEnter)
          have holder := exclusive.submits other (by rw [at_]; rfl)
          rw [owner] at holder
          cases holder
          exact absurd rfl same
    | submitCall | submitAllocate | submitNoMemory | submitCheck | submitUnlock | submitSignal
    | submitSignalUnheard | submitRefuse =>
      dsimp only [PoolState.At, PoolState.act] at at_ here mayEnter
      have already : (s.submits t).task? = some task ∧ (s.submits t).mayEnter = true := by
        clear nodup sublist last
        grind -ring -linarith -order -ac
      exact last t task already.1 already.2
    | _ => exact last t task here mayEnter

theorem queued_created (n : Nat) : Queued (.created n) :=
  ⟨[], rfl, LinkedQueue.represents_empty⟩

theorem Queued.act (queued : Queued s) (numbered : Numbered s) (at_ : s.At event)
    (ready : s.Ready n event) : Queued (s.act event) := by
  obtain ⟨items, enqueued, represents⟩ := queued
  cases event with
  | submitEnqueue t task =>
      change s.submits t = _ at at_
      have notEntered : task ∉ s.enqueued := by
        rw [numbered.waiting t task (by rw [at_]; rfl), at_]
        exact Bool.false_ne_true
      rw [enqueued, List.mem_append, not_or] at notEntered
      refine ⟨items ++ [task], ?_, represents.enqueue notEntered.2⟩
      change s.enqueued ++ [task] = _
      rw [enqueued, List.append_assoc]
      rfl
  | workerTake w task =>
      obtain ⟨rest, rfl⟩ := represents.exists_cons ready
      refine ⟨rest, ?_, represents.dequeue⟩
      change s.enqueued = (s.taken ++ [task]) ++ rest
      rw [enqueued, List.append_assoc]
      rfl
  | _ => exact ⟨items, enqueued, represents⟩

theorem held_created (n : Nat) : Held (.created n) := by
  have nobody : ∀ w task, ((PoolState.created n).workers w).task? ≠ some task := by
    intro w task
    simp only [PoolState.created]
    split
    · exact fun here => by cases here
    · exact fun here => by cases here
  constructor
  · exact fun w task here => absurd here (nobody w task)
  · exact fun w w' task here => absurd here (nobody w task)
  · exact fun w task here => absurd here (nobody w task)
  · exact fun w task here => absurd here (nobody w task)
  · simp [PoolState.created]
  · exact List.nodup_nil
  · exact List.nodup_nil
  · simp [PoolState.created]
  · simp [PoolState.created]

/-- The task at the head of the queue has not been taken. -/
theorem Queued.untaken (queued : Queued s) (ordered : Ordered s) :
    ∀ task, s.queue.head = some task → task ∉ s.taken := by
  intro task first taken
  obtain ⟨items, enqueued, represents⟩ := queued
  obtain ⟨rest, rfl⟩ := represents.exists_cons first
  have nodup := ordered.sublist.nodup ordered.nodup
  rw [enqueued, List.nodup_append] at nodup
  exact nodup.2.2 task taken task List.mem_cons_self rfl

theorem Held.act_taken (held : Held s) (at_ : s.At event) :
    ∀ w task, ((s.act event).workers w).task? = some task → task ∈ (s.act event).taken := by
  have taken := held.taken
  intro w task here
  cases event with
  | submitSignal | workerLock | workerWait | workerLeave | workerTake | workerUnlockExit
  | workerUnlockRun | workerCall | workerReturn | workerSpurious | destroyBroadcast =>
    dsimp only [PoolState.At, PoolState.act] at at_ here ⊢
    grind -ring -linarith -order -ac
  | _ => exact taken w task here

theorem Held.act_distinct (held : Held s) (queued : Queued s) (ordered : Ordered s)
    (at_ : s.At event) (ready : s.Ready n event) :
    ∀ w w' task, ((s.act event).workers w).task? = some task →
      ((s.act event).workers w').task? = some task → w = w' := by
  have untaken := queued.untaken ordered
  have distinct := held.distinct
  have taken := held.taken
  intro w w' task here there
  cases event with
  | submitSignal | workerLock | workerWait | workerLeave | workerTake | workerUnlockExit
  | workerUnlockRun | workerCall | workerReturn | workerSpurious | destroyBroadcast =>
    dsimp only [PoolState.At, PoolState.Ready, PoolState.act] at at_ ready here there
    grind -ring -linarith -order -ac
  | _ => exact distinct w w' task here there

theorem Held.act_unstarted (held : Held s) (queued : Queued s) (ordered : Ordered s)
    (at_ : s.At event) (ready : s.Ready n event) :
    ∀ w task, ((s.act event).workers w).task? = some task →
      (task ∈ (s.act event).started ↔ ((s.act event).workers w).isRunning = true) := by
  have untaken := queued.untaken ordered
  have distinct := held.distinct
  have unstarted := held.unstarted
  have startedTaken := held.startedTaken
  intro w task here
  cases event with
  | submitSignal | workerLock | workerWait | workerLeave | workerTake | workerUnlockExit
  | workerUnlockRun | workerCall | workerReturn | workerSpurious | destroyBroadcast =>
    dsimp only [PoolState.At, PoolState.Ready, PoolState.act] at at_ ready here ⊢
    grind -ring -linarith -order -ac
  | _ => exact unstarted w task here

theorem Held.act_unfinished (held : Held s) (queued : Queued s) (ordered : Ordered s)
    (at_ : s.At event) (ready : s.Ready n event) :
    ∀ w task, ((s.act event).workers w).task? = some task →
      task ∉ (s.act event).finished := by
  have untaken := queued.untaken ordered
  have distinct := held.distinct
  have unfinished := held.unfinished
  have finishedStarted := held.finishedStarted
  have startedTaken := held.startedTaken
  intro w task here
  cases event with
  | submitSignal | workerLock | workerWait | workerLeave | workerTake | workerUnlockExit
  | workerUnlockRun | workerCall | workerReturn | workerSpurious | destroyBroadcast =>
    dsimp only [PoolState.At, PoolState.Ready, PoolState.act] at at_ ready here ⊢
    grind -ring -linarith -order -ac
  | _ => exact unfinished w task here

theorem Held.act_startedTaken (held : Held s) (at_ : s.At event) :
    ∀ task ∈ (s.act event).started, task ∈ (s.act event).taken := by
  have taken := held.taken
  have startedTaken := held.startedTaken
  cases event with
  | workerTake | workerCall =>
    dsimp only [PoolState.At, PoolState.act] at at_ ⊢
    grind -ring -linarith -order -ac
  | _ => exact startedTaken

theorem Held.act_startedNodup (held : Held s) (at_ : s.At event) :
    (s.act event).started.Nodup := by
  have unstarted := held.unstarted
  have startedNodup := held.startedNodup
  cases event with
  | workerCall w task =>
    dsimp only [PoolState.At, PoolState.act] at at_ ⊢
    grind -ring -linarith -order -ac
  | _ => exact startedNodup

theorem Held.act_finishedNodup (held : Held s) (at_ : s.At event) :
    (s.act event).finished.Nodup := by
  have unfinished := held.unfinished
  have finishedNodup := held.finishedNodup
  cases event with
  | workerReturn w task =>
    dsimp only [PoolState.At, PoolState.act] at at_ ⊢
    grind -ring -linarith -order -ac
  | _ => exact finishedNodup

theorem Held.act_finishedStarted (held : Held s) (at_ : s.At event) :
    ∀ task ∈ (s.act event).finished, task ∈ (s.act event).started := by
  have unstarted := held.unstarted
  have finishedStarted := held.finishedStarted
  cases event with
  | workerCall | workerReturn =>
    dsimp only [PoolState.At, PoolState.act] at at_ ⊢
    grind -ring -linarith -order -ac
  | _ => exact finishedStarted

theorem Held.act_settled (held : Held s) (at_ : s.At event) (ready : s.Ready n event) :
    ∀ task ∈ (s.act event).taken,
      task ∈ (s.act event).finished ∨ ∃ w, ((s.act event).workers w).task? = some task := by
  have settled := held.settled
  intro task member
  have kept : ∀ {workers' : Nat → WorkerPc}, task ∈ s.taken →
      (∀ w, (s.workers w).task? = some task → (workers' w).task? = some task) →
      task ∈ s.finished ∨ ∃ w, (workers' w).task? = some task := by
    intro workers' old keeps
    rcases settled task old with finished | ⟨w, here⟩
    · exact .inl finished
    · exact .inr ⟨w, keeps w here⟩
  cases event with
  | workerTake w first =>
      dsimp only [PoolState.At, PoolState.act] at at_ member ⊢
      rcases List.mem_append.mp member with old | new
      · exact kept old (by grind -ring -linarith -order -ac)
      · exact .inr ⟨w, by grind -ring -linarith -order -ac⟩
  | workerReturn w done =>
      dsimp only [PoolState.At, PoolState.act] at at_ member ⊢
      rcases settled task member with finished | ⟨v, here⟩
      · exact .inl (List.mem_append_left _ finished)
      · by_cases same : v = w
        · rw [same, at_] at here
          cases here
          exact .inl (List.mem_append_right _ List.mem_cons_self)
        · exact .inr ⟨v, by rw [Function.update_of_ne same]; exact here⟩
  | submitSignal | workerLock | workerWait | workerLeave | workerUnlockExit | workerUnlockRun
  | workerCall | workerSpurious | destroyBroadcast =>
    dsimp only [PoolState.At, PoolState.Ready, PoolState.act] at at_ ready member ⊢
    exact kept member (by grind -ring -linarith -order -ac)
  | _ => exact settled task member

theorem Held.act (held : Held s) (queued : Queued s) (ordered : Ordered s) (at_ : s.At event)
    (ready : s.Ready n event) : Held (s.act event) where
  taken := held.act_taken at_
  distinct := held.act_distinct queued ordered at_ ready
  unstarted := held.act_unstarted queued ordered at_ ready
  unfinished := held.act_unfinished queued ordered at_ ready
  startedTaken := held.act_startedTaken at_
  startedNodup := held.act_startedNodup at_
  finishedNodup := held.act_finishedNodup at_
  finishedStarted := held.act_finishedStarted at_
  settled := held.act_settled at_ ready

end Steps

/-- The invariant of the pool. -/
structure PoolInvariant (n : Nat) (s : PoolState) : Prop where
  exclusive : Exclusive s
  shutdown : Shutdown n s
  numbered : Numbered s
  ordered : Ordered s
  queued : Queued s
  held : Held s

section Runs

variable {n : Nat} {s s' : PoolState} {event : PoolEvent}

theorem poolInvariant_created (n : Nat) : PoolInvariant n (.created n) where
  exclusive := exclusive_created n
  shutdown := shutdown_created n
  numbered := numbered_created n
  ordered := ordered_created n
  queued := queued_created n
  held := held_created n

/-- Every step of every thread keeps the invariant. -/
theorem PoolInvariant.step (invariant : PoolInvariant n s) (positive : 0 < n)
    (step : PoolStep n s event s') : PoolInvariant n s' := by
  obtain ⟨exclusive, shutdown, numbered, ordered, queued, held⟩ := invariant
  cases step with
  | act at_ ready alive =>
      constructor
      · exact exclusive.act at_ ready
      · exact shutdown.act exclusive positive at_ ready
      · exact numbered.act ordered at_
      · exact ordered.act numbered exclusive at_ ready
      · exact queued.act numbered at_ ready
      · exact held.act queued ordered at_ ready
  | fault at_ touches freed =>
      constructor
      · exact { exclusive with }
      · exact { shutdown with }
      · exact { numbered with }
      · exact { ordered with }
      · exact queued
      · exact { held with }

/-- When all workers have been joined, no worker is left. -/
theorem PoolInvariant.all_exited (invariant : PoolInvariant n s)
    (joined : s.destroyer.joined n = n) (w : Nat) : s.workers w = .exited := by
  rcases Nat.lt_or_ge w n with inside | outside
  · apply invariant.shutdown.joined w
    rw [joined]
    exact inside
  · exact invariant.shutdown.beyond w outside

theorem poolInvariant_of_reachable (positive : 0 < n) (reachable : Reachable n s) :
    PoolInvariant n s := by
  induction reachable with
  | created => exact poolInvariant_created n
  | step _ step inductionHypothesis => exact inductionHypothesis.step positive step

end Runs

end Dotten
