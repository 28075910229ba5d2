/-
Module: Dotten.ThreadPool.PoolExactlyOnce
Layer: ThreadPool
Purpose: Every accepted task is executed exactly once, in the order of the
  submits, and no refused task is executed.
Imports: Dotten.ThreadPool.PoolHistory
Main exports: ExactlyOnce, threadPool_exactlyOnce
-/
import Dotten.ThreadPool.PoolHistory

namespace Dotten

open Dotten.Library

/-- What the pool promises of the tasks, in a state of a run. -/
structure ExactlyOnce (n : Nat) (s : PoolState) : Prop where
  /-- No task is executed more than once. -/
  once : ∀ task, s.started.count task ≤ 1
  /-- A task whose submit returned `TEN_OK` has entered the queue. -/
  accepted : ∀ task, s.results task = some .ok → task ∈ s.enqueued
  /-- A task whose submit was refused is not executed. -/
  refused : ∀ task code, s.results task = some code → code ≠ .ok → task ∉ s.started
  /-- The tasks leave the queue in the order in which they entered it, and that
  is the order in which their submits acquired the lock. -/
  order : s.taken <+: s.enqueued ∧ s.enqueued.Sublist s.acquired ∧ s.acquired.Nodup
  /-- When all workers have been joined, every task that entered the queue has
  been executed exactly once, and none is left to be discarded. -/
  drained : s.destroyer.joined n = n →
    s.queue.head = none ∧ s.queue.tail = none ∧ s.discarded = [] ∧
      ∀ task ∈ s.enqueued, s.started.count task = 1 ∧ s.finished.count task = 1

section Runs

variable {n : Nat} {s s' : PoolState} {event : PoolEvent}

/-- Nothing is discarded, since the queue is empty when destroy looks at it. -/
theorem discarded_step (invariant : PoolInvariant n s) (step : PoolStep n s event s')
    (nothing : s.discarded = []) : s'.discarded = [] := by
  cases step with
  | fault at_ touches freed => exact nothing
  | act at_ ready alive =>
      cases event with
      | destroyDrain task =>
          have empty := invariant.shutdown.drained (some task) at_
          cases empty
      | _ => exact nothing

theorem discarded_of_reachable (positive : 0 < n) (reachable : Reachable n s) :
    s.discarded = [] := by
  induction reachable with
  | created => rfl
  | step reachable step inductionHypothesis =>
      exact discarded_step (poolInvariant_of_reachable positive reachable) step inductionHypothesis

/-- In every state of every run, for any number of workers, of submitting
threads and of tasks. -/
theorem threadPool_exactlyOnce (positive : 0 < n) (reachable : Reachable n s) :
    ExactlyOnce n s := by
  have invariant := poolInvariant_of_reachable positive reachable
  obtain ⟨items, enqueued, represents⟩ := invariant.queued
  constructor
  · exact fun task => List.nodup_iff_count_le_one.mp invariant.held.startedNodup task
  · intro task accepted
    exact (invariant.numbered.settled task .ok accepted).mpr rfl
  · intro task code refused notOk started
    have taken := invariant.held.startedTaken task started
    have entered : task ∈ s.enqueued := by
      rw [enqueued]
      exact List.mem_append_left items taken
    exact notOk ((invariant.numbered.settled task code refused).mp entered)
  · exact ⟨⟨items, enqueued.symm⟩, invariant.ordered.sublist, invariant.ordered.nodup⟩
  · intro joined
    have exited := invariant.all_exited joined
    have empty := (invariant.shutdown.leaving 0 positive (by rw [exited]; rfl)).2
    have nothing := represents.head_eq_none_iff.mp empty
    refine ⟨empty, represents.tail_eq_none_iff.mpr nothing,
      discarded_of_reachable positive reachable, ?_⟩
    intro task member
    rw [enqueued, nothing, List.append_nil] at member
    have finished : task ∈ s.finished := by
      rcases invariant.held.settled task member with finished | ⟨w, here⟩
      · exact finished
      · rw [exited w] at here
        cases here
    exact ⟨List.count_eq_one_of_mem invariant.held.startedNodup
        (invariant.held.finishedStarted task finished),
      List.count_eq_one_of_mem invariant.held.finishedNodup finished⟩

end Runs

/-- Two tasks, the second submitted while the first one runs. -/
theorem threadPool_exactlyOnce_twoTasks :
    ∃ s, (PoolState.created 1).runEvents 1
        (submitEvents (.client 0) 0 ++ (workerEvents 0 0).take 4 ++ submitEvents (.worker 0) 1 ++
          [.workerReturn 0 0] ++ workerEvents 0 1) = some s ∧
      s.finished = [0, 1] ∧ ExactlyOnce 1 s := by
  have runs : (((PoolState.created 1).runEvents 1
      (submitEvents (.client 0) 0 ++ (workerEvents 0 0).take 4 ++ submitEvents (.worker 0) 1 ++
        [.workerReturn 0 0] ++ workerEvents 0 1)).map PoolState.finished) = some [0, 1] := by
    decide
  obtain ⟨s, run, finished⟩ := Option.map_eq_some_iff.mp runs
  exact ⟨s, run, finished, threadPool_exactlyOnce (by decide) (Reachable.created.runEvents run)⟩

end Dotten
