/-
Module: Dotten.ThreadPool.PoolTermination
Layer: ThreadPool
Purpose: The pool does a bounded amount of work for each call: no run is longer
  than what its calls of submit and its spurious wake-ups account for.  So every
  pool settles, and waiting for the pool to be destroyed comes to an end.
Imports: Dotten.ThreadPool.PoolProgress, Dotten.Library.Potential
Main exports: PoolState.potential, potential_act, threadPool_run_bounded,
  PendingStep, threadPool_settles
-/
import Dotten.ThreadPool.PoolProgress
import Dotten.Library.Potential
import Mathlib.Algebra.Order.BigOperators.Group.Finset
import Mathlib.Algebra.Ring.Nat

namespace Dotten

open Dotten.Library

/-- The steps that a call of submit can still take, with those of the worker that
runs its task and of the worker that it wakes. -/
def SubmitPc.cost : SubmitPc → Nat
  | .idle => 0
  | .allocate _ => 14
  | .lock _ => 13
  | .check _ => 12
  | .enqueue _ => 11
  | .unlock _ => 5
  | .signal _ => 4
  | .refuse _ => 1

/-- The steps that a worker takes before it sleeps, is out, or finds a task. -/
def WorkerPc.cost : WorkerPc → Nat
  | .asleep | .exited => 0
  | .unlockExit => 1
  | .test => 2
  | .lock => 3
  | .running _ => 4
  | .call _ => 5
  | .unlockRun _ => 6

/-- The steps of destroy, with those of the `n` workers that it wakes. -/
def DestroyPc.cost (n : Nat) : DestroyPc → Nat
  | .done => 0
  | .drain _ => 1
  | .join i => n - i + 2
  | .broadcast => 4 * n + 3
  | .unlock => 4 * n + 4
  | .flag => 4 * n + 5
  | .lock => 4 * n + 6
  | .idle => 4 * n + 7

/-- The tasks in the queue. -/
def PoolState.waiting (s : PoolState) : Nat := s.enqueued.length - s.taken.length

/-- The steps that the threads can take before they need a new call or a wake-up
from nowhere; `callers` are the threads that submit. -/
def PoolState.potential (n : Nat) (callers : Finset Thread) (s : PoolState) : Nat :=
  ∑ t ∈ callers, (s.submits t).cost + ∑ w ∈ Finset.range n, (s.workers w).cost +
    5 * s.waiting + s.destroyer.cost n

/-- What an event makes room for. -/
def PoolEvent.income : PoolEvent → Nat
  | .submitCall _ => 15
  | .workerSpurious _ => 4
  | _ => 0

def PoolEvent.isSubmitCall : PoolEvent → Bool
  | .submitCall _ => true
  | _ => false

def PoolEvent.isSpurious : PoolEvent → Bool
  | .workerSpurious _ => true
  | _ => false

/-- The event starts a call of one of the threads, if it starts a call. -/
def PoolEvent.calledBy (callers : Finset Thread) : PoolEvent → Prop
  | .submitCall t => t ∈ callers
  | _ => True

/-- A step of a pool that has not been freed. -/
def ActStep (n : Nat) (s : PoolState) (event : PoolEvent) (s' : PoolState) : Prop :=
  s.At event ∧ s.Ready n event ∧ s' = s.act event

/-- The invariant of the pool, and nobody but the callers has called. -/
structure Accounted (n : Nat) (callers : Finset Thread) (s : PoolState) : Prop where
  invariant : PoolInvariant n s
  callers : ∀ t, s.submits t ≠ .idle → t ∈ callers

section Steps

variable {n : Nat} {callers : Finset Thread} {s : PoolState} {event : PoolEvent}

attribute [local grind =] Function.update_apply

theorem callers_act (known : ∀ t, s.submits t ≠ .idle → t ∈ callers) (at_ : s.At event)
    (called : event.calledBy callers) :
    ∀ t, (s.act event).submits t ≠ .idle → t ∈ callers := by
  intro t busy
  cases event <;> dsimp only [PoolState.At, PoolState.act, PoolEvent.calledBy] at at_ called busy <;>
    grind -ring -linarith -order -ac

/-- A worker that is not out changes its place. -/
theorem cost_workers (invariant : PoolInvariant n s) {w : Nat} (inLoop : s.workers w ≠ .exited)
    (pc : WorkerPc) :
    ∑ v ∈ Finset.range n, (Function.update s.workers w pc v).cost + (s.workers w).cost =
      ∑ v ∈ Finset.range n, (s.workers v).cost + pc.cost :=
  sum_weight_update WorkerPc.cost s.workers
    (Finset.mem_range.mpr (invariant.shutdown.lt_of_ne_exited inLoop)) pc

/-- Waking everybody costs three steps for each worker. -/
theorem cost_broadcast (n : Nat) (workers : Nat → WorkerPc) :
    ∑ w ∈ Finset.range n, (if workers w = .asleep then WorkerPc.lock else workers w).cost ≤
      ∑ w ∈ Finset.range n, (workers w).cost + 3 * n := by
  have each : ∀ w ∈ Finset.range n,
      (if workers w = .asleep then WorkerPc.lock else workers w).cost ≤ (workers w).cost + 3 := by
    intro w _
    split
    · exact Nat.le_add_left _ _
    · exact Nat.le_add_right _ _
  have total := Finset.sum_le_sum each
  rw [Finset.sum_add_distrib, Finset.sum_const, Finset.card_range, Nat.nsmul_eq_mul] at total
  omega

/-- There is a task to take where the queue is not empty. -/
theorem waiting_pos (queued : Queued s) {task : Task} (front : s.queue.head = some task) :
    s.taken.length < s.enqueued.length := by
  obtain ⟨items, enqueued, represents⟩ := queued
  have nonempty : items ≠ [] := by
    intro empty
    rw [represents.head_eq_none_iff.mpr empty] at front
    cases front
  have some := List.length_pos_iff.mpr nonempty
  rw [enqueued, List.length_append]
  omega

theorem taken_le (queued : Queued s) : s.taken.length ≤ s.enqueued.length := by
  obtain ⟨items, enqueued, -⟩ := queued
  rw [enqueued, List.length_append]
  exact Nat.le_add_right _ _

/-- A thread that is in a call of submit changes its place. -/
theorem cost_submits (accounted : Accounted n callers s) {t : Thread}
    (busy : s.submits t ≠ .idle) (pc : SubmitPc) :
    ∑ u ∈ callers, (Function.update s.submits t pc u).cost + (s.submits t).cost =
      ∑ u ∈ callers, (s.submits u).cost + pc.cost :=
  sum_weight_update SubmitPc.cost s.submits (accounted.callers t busy) pc

/-- A step inside `ten_thread_pool_submit`. -/
theorem potential_submit (accounted : Accounted n callers s) {t : Thread} {before after : SubmitPc}
    (place : s.submits t = before) (busy : before ≠ .idle) {s' : PoolState}
    (submits : s'.submits = Function.update s.submits t after)
    (workers : s'.workers = s.workers) (waiting : s'.waiting = s.waiting)
    (destroyer : s'.destroyer = s.destroyer) (cheaper : after.cost + 1 ≤ before.cost) :
    s'.potential n callers + 1 ≤ s.potential n callers := by
  have change := cost_submits accounted (by rw [place]; exact busy) after
  rw [place] at change
  unfold PoolState.potential
  rw [submits, workers, waiting, destroyer]
  omega

/-- A step of a worker that takes no task. -/
theorem potential_worker (accounted : Accounted n callers s) {w : Nat} {before after : WorkerPc}
    (place : s.workers w = before) (inLoop : before ≠ .exited) (s' : PoolState) (income : Nat)
    (submits : s'.submits = s.submits)
    (workers : s'.workers = Function.update s.workers w after) (waiting : s'.waiting = s.waiting)
    (destroyer : s'.destroyer = s.destroyer) (cheaper : after.cost + 1 ≤ before.cost + income) :
    s'.potential n callers + 1 ≤ s.potential n callers + income := by
  have change := cost_workers accounted.invariant (by rw [place]; exact inLoop) after
  rw [place] at change
  unfold PoolState.potential
  rw [submits, workers, waiting, destroyer]
  omega

/-- A step of destroy that wakes nobody. -/
theorem potential_destroyer {before after : DestroyPc} (place : s.destroyer = before)
    {s' : PoolState} (submits : s'.submits = s.submits) (workers : s'.workers = s.workers)
    (waiting : s'.waiting = s.waiting) (destroyer : s'.destroyer = after)
    (cheaper : after.cost n + 1 ≤ before.cost n) :
    s'.potential n callers + 1 ≤ s.potential n callers := by
  unfold PoolState.potential
  rw [submits, workers, waiting, destroyer, place]
  omega

/-- Every event is paid for. -/
theorem potential_act (accounted : Accounted n callers s) (at_ : s.At event)
    (ready : s.Ready n event) (called : event.calledBy callers) :
    (s.act event).potential n callers + 1 ≤ s.potential n callers + event.income := by
  have invariant := accounted.invariant
  cases event with
  | submitCall t =>
      have place : s.submits t = .idle := at_
      have change := sum_weight_update SubmitPc.cost s.submits called (.allocate s.calls)
      rw [place] at change
      dsimp only [PoolState.potential, PoolState.act, PoolState.waiting, PoolEvent.income,
        SubmitPc.cost] at change ⊢
      omega
  | submitAllocate t task =>
      exact potential_submit accounted at_ (by simp) rfl rfl rfl rfl le_rfl
  | submitNoMemory t task =>
      exact potential_submit accounted at_ (by simp) rfl rfl rfl rfl (show 0 + 1 ≤ 14 by decide)
  | submitLock t task =>
      exact potential_submit accounted at_ (by simp) rfl rfl rfl rfl le_rfl
  | submitCheck t task =>
      refine potential_submit accounted at_ (by simp) rfl rfl rfl rfl ?_
      split
      · exact (by decide : 1 + 1 ≤ 12)
      · exact le_rfl
  | submitEnqueue t task =>
      have place : s.submits t = .enqueue task := at_
      have change := cost_submits accounted (by rw [place]; simp) (.unlock task)
      rw [place] at change
      dsimp only [PoolState.potential, PoolState.act, PoolState.waiting, PoolEvent.income,
        SubmitPc.cost] at change ⊢
      have behind := taken_le invariant.queued
      rw [List.length_append, List.length_singleton]
      omega
  | submitUnlock t task =>
      exact potential_submit accounted at_ (by simp) rfl rfl rfl rfl le_rfl
  | submitSignal t task woken =>
      -- the signal pays for the worker that it wakes
      have place : s.submits t = .signal task := at_
      have asleep : s.workers woken = .asleep := ready
      have change := cost_submits accounted (by rw [place]; simp) .idle
      have wakes := cost_workers invariant (by rw [asleep]; simp) .lock
      rw [place] at change
      rw [asleep] at wakes
      dsimp only [PoolState.potential, PoolState.act, PoolState.waiting, PoolEvent.income,
        SubmitPc.cost, WorkerPc.cost] at change wakes ⊢
      omega
  | submitSignalUnheard t task =>
      exact potential_submit accounted at_ (by simp) rfl rfl rfl rfl (show 0 + 1 ≤ 4 by decide)
  | submitRefuse t task =>
      exact potential_submit accounted at_ (by simp) rfl rfl rfl rfl le_rfl
  | workerLock w => exact potential_worker accounted at_ (by simp) _ _ rfl rfl rfl rfl le_rfl
  | workerWait w =>
      exact potential_worker accounted at_ (by simp) _ _ rfl rfl rfl rfl (show 0 + 1 ≤ 2 by decide)
  | workerLeave w => exact potential_worker accounted at_ (by simp) _ _ rfl rfl rfl rfl le_rfl
  | workerTake w task =>
      -- the task in the queue pays for its own run
      have place : s.workers w = .test := at_
      have change := cost_workers invariant (by rw [place]; simp) (.unlockRun task)
      have room := waiting_pos invariant.queued ready
      rw [place] at change
      dsimp only [PoolState.potential, PoolState.act, PoolState.waiting, PoolEvent.income,
        WorkerPc.cost] at change ⊢
      rw [List.length_append, List.length_singleton]
      omega
  | workerUnlockExit w => exact potential_worker accounted at_ (by simp) _ _ rfl rfl rfl rfl le_rfl
  | workerUnlockRun w task => exact potential_worker accounted at_ (by simp) _ _ rfl rfl rfl rfl le_rfl
  | workerCall w task => exact potential_worker accounted at_ (by simp) _ _ rfl rfl rfl rfl le_rfl
  | workerReturn w task => exact potential_worker accounted at_ (by simp) _ _ rfl rfl rfl rfl le_rfl
  | workerSpurious w => exact potential_worker accounted at_ (by simp) _ _ rfl rfl rfl rfl le_rfl
  | destroyCall => exact potential_destroyer at_ rfl rfl rfl rfl le_rfl
  | destroyLock => exact potential_destroyer at_ rfl rfl rfl rfl le_rfl
  | destroyFlag => exact potential_destroyer at_ rfl rfl rfl rfl le_rfl
  | destroyUnlock => exact potential_destroyer at_ rfl rfl rfl rfl le_rfl
  | destroyBroadcast =>
      have place : s.destroyer = .broadcast := at_
      have wakes := cost_broadcast n s.workers
      dsimp only [PoolState.potential, PoolState.act, PoolState.waiting, PoolEvent.income]
      rw [place]
      dsimp only [DestroyPc.cost]
      omega
  | destroyJoin i =>
      have more : i < n := ready.1
      refine potential_destroyer at_ rfl rfl rfl rfl ?_
      change n - (i + 1) + 2 + 1 ≤ n - i + 2
      omega
  | destroyJoined i =>
      refine potential_destroyer at_ rfl rfl rfl rfl ?_
      exact Nat.le_add_left _ _
  | destroyDrain task =>
      have empty := invariant.shutdown.drained (some task) at_
      cases empty
  | destroyFree => exact potential_destroyer at_ rfl rfl rfl rfl le_rfl

end Steps

section Runs

variable {n : Nat} {callers : Finset Thread} {s s' : PoolState} {event : PoolEvent}

theorem Accounted.act (accounted : Accounted n callers s) (positive : 0 < n)
    (step : ActStep n s event s') (called : event.calledBy callers) :
    Accounted n callers s' := by
  obtain ⟨at_, ready, rfl⟩ := step
  obtain ⟨exclusive, shutdown, numbered, ordered, queued, held⟩ := accounted.invariant
  refine ⟨?_, callers_act accounted.callers at_ called⟩
  exact ⟨exclusive.act at_ ready, shutdown.act exclusive positive at_ ready,
    numbered.act ordered at_, ordered.act numbered exclusive at_ ready,
    queued.act numbered at_ ready, held.act queued ordered at_ ready⟩

theorem accounted_created (n : Nat) (callers : Finset Thread) :
    Accounted n callers (.created n) :=
  ⟨poolInvariant_created n, fun _ busy => absurd rfl busy⟩

theorem trace_of_runEvents {events : List PoolEvent} :
    ∀ {s s' : PoolState}, s.runEvents n events = some s' → Trace (ActStep n) s events s' := by
  induction events with
  | nil =>
      intro s s' run
      cases run
      exact .nil s
  | cons event rest inductionHypothesis =>
      intro s s' run
      rw [PoolState.runEvents] at run
      split at run
      · rename_i enabled
        exact .cons ⟨enabled.1, enabled.2.1, rfl⟩ (inductionHypothesis run)
      · cases run

theorem potential_created (n : Nat) (callers : Finset Thread) :
    (PoolState.created n).potential n callers = 7 * n + 7 := by
  have workers : ∑ w ∈ Finset.range n, ((PoolState.created n).workers w).cost = n * 3 := by
    have each : ∀ w ∈ Finset.range n, ((PoolState.created n).workers w).cost = 3 := by
      intro w member
      simp only [PoolState.created, if_pos (Finset.mem_range.mp member)]
      rfl
    rw [Finset.sum_congr rfl each, Finset.sum_const, Finset.card_range, Nat.nsmul_eq_mul]
  have submits : ∑ t ∈ callers, ((PoolState.created n).submits t).cost = 0 :=
    Finset.sum_eq_zero fun t _ => rfl
  unfold PoolState.potential
  rw [workers, submits]
  change 0 + n * 3 + 5 * 0 + (4 * n + 7) = 7 * n + 7
  omega

/-- The threads that call submit in a run. -/
def callersOf (events : List PoolEvent) : Finset Thread :=
  (events.filterMap fun event =>
    match event with
    | .submitCall t => some t
    | _ => none).toFinset

theorem calledBy_callersOf {events : List PoolEvent} (member : event ∈ events) :
    event.calledBy (callersOf events) := by
  cases event with
  | submitCall t => exact List.mem_toFinset.mpr (List.mem_filterMap.mpr ⟨_, member, rfl⟩)
  | _ => trivial

theorem sum_income (events : List PoolEvent) :
    (events.map PoolEvent.income).sum =
      15 * events.countP PoolEvent.isSubmitCall + 4 * events.countP PoolEvent.isSpurious := by
  induction events with
  | nil => rfl
  | cons event rest inductionHypothesis =>
      rw [List.map_cons, List.sum_cons, inductionHypothesis, List.countP_cons, List.countP_cons]
      cases event <;> simp [PoolEvent.income, PoolEvent.isSubmitCall, PoolEvent.isSpurious] <;>
        omega

/-- No run of a pool of `n` workers is longer than the given number of steps for
each worker, for each call of submit and for each spurious wake-up, whatever the
interleaving. -/
theorem threadPool_run_bounded (positive : 0 < n) {events : List PoolEvent}
    (run : (PoolState.created n).runEvents n events = some s) :
    events.length ≤ 7 * n + 7 + 15 * events.countP PoolEvent.isSubmitCall +
      4 * events.countP PoolEvent.isSpurious := by
  have paid := (trace_of_runEvents run).length_le (PoolState.potential n (callersOf events))
    PoolEvent.income (accounted_created n (callersOf events))
    (fun s event s' member accounted step =>
      accounted.act positive step (calledBy_callersOf member))
    (fun s event s' member accounted step => by
      obtain ⟨at_, ready, rfl⟩ := step
      exact potential_act accounted at_ ready (calledBy_callersOf member))
  rw [potential_created, sum_income] at paid
  omega

end Runs

/-- One worker, one task, and nobody who wakes for nothing. -/
theorem threadPool_run_bounded_oneTask :
    ∃ s, (PoolState.created 1).runEvents 1
        (submitEvents (.client 0) 0 ++ workerEvents 0 0) = some s ∧
      (submitEvents (.client 0) 0 ++ workerEvents 0 0).length ≤ 7 * 1 + 7 +
        15 * (submitEvents (.client 0) 0 ++ workerEvents 0 0).countP PoolEvent.isSubmitCall +
        4 * (submitEvents (.client 0) 0 ++ workerEvents 0 0).countP PoolEvent.isSpurious := by
  have runs : (((PoolState.created 1).runEvents 1
      (submitEvents (.client 0) 0 ++ workerEvents 0 0)).map PoolState.finished) = some [0] := by
    decide
  obtain ⟨s, run, -⟩ := Option.map_eq_some_iff.mp runs
  exact ⟨s, run, threadPool_run_bounded (by decide) run⟩

/-- A step that somebody has to take: not a new call, and no wake-up from nowhere. -/
def PendingStep (n : Nat) (s : PoolState) (event : PoolEvent) (s' : PoolState) : Prop :=
  event.voluntary = false ∧ ActStep n s event s'

/-- A reachable state after a call of destroy, or before it. -/
structure Settling (n : Nat) (callers : Finset Thread) (called : Prop) (s : PoolState) : Prop where
  reachable : Reachable n s
  accounted : Accounted n callers s
  destroyer : s.destroyer ≠ .idle ↔ called

section Settling

variable {n : Nat} {callers : Finset Thread} {s s' : PoolState} {event : PoolEvent} {called : Prop}

/-- In every state of a run only finitely many threads are in a call. -/
theorem exists_accounted (positive : 0 < n) (reachable : Reachable n s) :
    ∃ callers, Accounted n callers s := by
  induction reachable with
  | created => exact ⟨∅, accounted_created n ∅⟩
  | @step s s' event reachable step inductionHypothesis =>
      obtain ⟨callers, accounted⟩ := inductionHypothesis
      have invariant := poolInvariant_of_reachable positive (reachable.step step)
      cases step with
      | act at_ ready alive =>
          refine ⟨callers ∪ callersOf [event], invariant, ?_⟩
          refine callers_act (fun t busy => Finset.mem_union_left _ (accounted.callers t busy)) at_ ?_
          cases event with
          | submitCall t =>
              exact Finset.mem_union_right _
                (List.mem_toFinset.mpr (List.mem_singleton_self t))
          | _ => trivial
      | fault at_ touches freed => exact ⟨callers, invariant, accounted.callers⟩

theorem calledBy_of_pending (pending : event.voluntary = false) : event.calledBy callers := by
  cases event with
  | submitCall t => cases pending
  | _ => trivial

theorem income_of_pending (pending : event.voluntary = false) : event.income = 0 := by
  cases event with
  | submitCall t => cases pending
  | workerSpurious w => cases pending
  | _ => rfl

/-- A freed pool has nothing left to do, as far as destroy is concerned. -/
theorem Settling.alive (settling : Settling n callers called s) (going : s.destroyer ≠ .done) :
    s.freed = false := by
  rw [← Bool.not_eq_true]
  exact fun freed => going (settling.accounted.invariant.shutdown.freed.mp freed)

theorem Settling.pending (settling : Settling n callers called s) (positive : 0 < n)
    (going : s.destroyer ≠ .done) (step : PendingStep n s event s') :
    Settling n callers called s' := by
  obtain ⟨pending, at_, ready, rfl⟩ := step
  refine ⟨settling.reachable.step (.act at_ ready fun _ => settling.alive going),
    settling.accounted.act positive ⟨at_, ready, rfl⟩ (calledBy_of_pending pending), ?_⟩
  rw [← settling.destroyer]
  cases event with
  | destroyCall => cases pending
  | destroyLock | destroyFlag | destroyUnlock | destroyBroadcast | destroyJoin i | destroyJoined i
  | destroyDrain task | destroyFree =>
      have place := at_
      dsimp only [PoolState.At] at place
      rw [place]
      exact iff_of_true (fun idle => by cases idle) (fun idle => by cases idle)
  | _ => rfl

theorem Settling.pays (settling : Settling n callers called s)
    (step : PendingStep n s event s') :
    s'.potential n callers + 1 ≤ s.potential n callers := by
  obtain ⟨pending, at_, ready, rfl⟩ := step
  have paid := potential_act settling.accounted at_ ready (calledBy_of_pending pending)
  rw [income_of_pending pending, Nat.add_zero] at paid
  exact paid

theorem Settling.inevitable (settling : Settling n callers called s) (positive : 0 < n)
    (goal : PoolState → Prop)
    (ends : ∀ s, Settling n callers called s → ¬goal s → s.destroyer ≠ .done ∧ ¬AtRest n s) :
    Inevitable (PendingStep n) goal s := by
  refine inevitable_of_potential (PoolState.potential n callers) ?_ ?_ ?_ settling
  · intro s settling going
    obtain ⟨alive, busy⟩ := ends s settling going
    rcases progress_of_reachable positive settling.reachable (settling.alive alive) with more | rest
    · obtain ⟨event, pending, at_, ready⟩ := more
      exact ⟨event, _, pending, at_, ready, rfl⟩
    · exact absurd rest busy
  · exact fun s event s' settling going step =>
      settling.pending positive (ends s settling going).1 step
  · exact fun s event s' settling going step => settling.pays step

/-- Left alone, a pool settles, however its threads are scheduled: after a call of
destroy it is freed, and before one it comes to rest, with every accepted task
run. -/
theorem threadPool_settles (positive : 0 < n) (reachable : Reachable n s) :
    (s.destroyer = .idle → Inevitable (PendingStep n) (AtRest n) s) ∧
      (s.destroyer ≠ .idle → Inevitable (PendingStep n) (fun s' => s'.freed = true) s) := by
  obtain ⟨callers, accounted⟩ := exists_accounted positive reachable
  constructor
  · intro uncalled
    have settling : Settling n callers False s :=
      ⟨reachable, accounted, iff_of_false (fun called => called uncalled) id⟩
    refine settling.inevitable positive (AtRest n) fun s settling going => ⟨?_, going⟩
    intro done
    exact settling.destroyer.mp (by rw [done]; simp)
  · intro called
    have settling : Settling n callers True s := ⟨reachable, accounted, iff_of_true called trivial⟩
    refine settling.inevitable positive _ fun s settling going => ⟨?_, ?_⟩
    · exact fun done => going (settling.accounted.invariant.shutdown.freed.mpr done)
    · exact fun rest => settling.destroyer.mpr trivial rest.destroyer

end Settling

/-- A pool that is destroyed while a task is in its queue. -/
theorem threadPool_settles_busy :
    ∃ s, (PoolState.created 1).runEvents 1 (submitEvents (.client 0) 0 ++ [.destroyCall]) = some s ∧
      Inevitable (PendingStep 1) (fun s' => s'.freed = true) s := by
  have runs : (((PoolState.created 1).runEvents 1
      (submitEvents (.client 0) 0 ++ [.destroyCall])).map PoolState.destroyer) = some .lock := by
    decide
  obtain ⟨s, run, place⟩ := Option.map_eq_some_iff.mp runs
  refine ⟨s, run, (threadPool_settles (by decide) (Reachable.created.runEvents run)).2 ?_⟩
  rw [place]
  simp

end Dotten
