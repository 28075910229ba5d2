/-
Module: Dotten.ThreadPool.PoolUseAfterDestroy
Layer: ThreadPool
Purpose: When submits may use a pool that destroy has freed, and what the
  callers have to do to prevent it.
Imports: Dotten.ThreadPool.PoolHistory
Main exports: SafelyDestroyed, Synchronised, SynchronisedRun,
  not_safelyDestroyed, threadPool_safelyDestroyed
-/
import Dotten.ThreadPool.PoolHistory

namespace Dotten

open Dotten.Library

/-- What thread_pool.h promises of submits around a destroy. -/
structure SafelyDestroyed (s : PoolState) : Prop where
  /-- No thread has used the pool after it was freed. -/
  unharmed : s.faulted = false
  /-- A call that had acquired the lock was over before the pool was freed. -/
  settled : s.freed = true → ∀ t task, (s.submits t).task? = some task → task ∉ s.acquired
  /-- Every call that is over was accepted or refused. -/
  answered : ∀ task code, s.results task = some code → code = .ok ∨ code = .invalidState

/-- What a step needs of the callers and the allocator: destroy frees the pool
while no thread of theirs is in submit, nobody calls submit afterwards, and
memory does not run out. -/
def Synchronised (s : PoolState) : PoolEvent → Prop
  | .submitCall _ => s.freed = false
  | .submitNoMemory _ _ => False
  | .destroyFree => ∀ c, s.submits (.client c) = .idle
  | _ => True

/-- The states of the runs all of whose steps are synchronised. -/
inductive SynchronisedRun (n : Nat) : PoolState → Prop where
  | created : SynchronisedRun n (.created n)
  | step {s s' : PoolState} {event : PoolEvent} (run : SynchronisedRun n s)
      (synchronised : Synchronised s event) (step : PoolStep n s event s') : SynchronisedRun n s'

section Runs

variable {n : Nat} {s s' : PoolState} {event : PoolEvent}

theorem SynchronisedRun.reachable (run : SynchronisedRun n s) : Reachable n s := by
  induction run with
  | created => exact .created
  | step _ _ step inductionHypothesis => exact inductionHypothesis.step step

/-- Nobody is left to use a freed pool. -/
structure Quiet (s : PoolState) : Prop where
  unharmed : s.faulted = false
  idle : s.freed = true → ∀ t, s.submits t = .idle
  answered : ∀ task code, s.results task = some code → code = .ok ∨ code = .invalidState

/-- With the workers the submits of the tasks they ran are gone. -/
theorem PoolInvariant.workers_idle (invariant : PoolInvariant n s)
    (joined : s.destroyer.joined n = n) (w : Nat) : s.submits (.worker w) = .idle := by
  apply Classical.byContradiction
  intro busy
  have running := invariant.exclusive.nested w busy
  rw [invariant.all_exited joined w] at running
  cases running

/-- No step of a quiet, freed pool touches it. -/
theorem Quiet.not_touches (quiet : Quiet s) (invariant : PoolInvariant n s)
    (freed : s.freed = true) (at_ : s.At event) : event.touchesPool = false := by
  have idle := quiet.idle freed
  have done := invariant.shutdown.freed.mp freed
  have gone := invariant.all_exited (by rw [done]; rfl)
  cases event with
  | submitCall | submitAllocate | submitNoMemory | workerCall | workerReturn | destroyCall => rfl
  | submitLock t | submitCheck t | submitEnqueue t | submitUnlock t | submitSignal t
  | submitSignalUnheard t | submitRefuse t =>
      have here := idle t
      rw [show s.submits t = _ from at_] at here
      cases here
  | workerLock w | workerWait w | workerLeave w | workerTake w | workerUnlockExit w
  | workerUnlockRun w | workerSpurious w =>
      have here := gone w
      rw [show s.workers w = _ from at_] at here
      cases here
  | destroyLock | destroyFlag | destroyUnlock | destroyBroadcast | destroyJoin | destroyJoined
  | destroyDrain | destroyFree =>
      rw [show s.destroyer = _ from at_] at done
      cases done

theorem Quiet.step (quiet : Quiet s) (invariant : PoolInvariant n s)
    (synchronised : Synchronised s event) (step : PoolStep n s event s') : Quiet s' := by
  cases step with
  | fault at_ touches freed =>
      rw [quiet.not_touches invariant freed at_] at touches
      cases touches
  | act at_ ready alive =>
      constructor
      · cases event with
        | _ => exact quiet.unharmed
      · intro freed t
        cases event with
        | destroyFree =>
            -- the workers have been joined, and the callers are synchronised
            cases t with
            | client c => exact synchronised c
            | worker w =>
                apply invariant.workers_idle
                rw [show s.destroyer = _ from at_]
                rfl
        | submitCall other =>
            change s.freed = true at freed
            rw [show s.freed = false from synchronised] at freed
            cases freed
        | submitAllocate other | submitNoMemory other | submitLock other | submitCheck other
        | submitEnqueue other | submitUnlock other | submitSignal other
        | submitSignalUnheard other | submitRefuse other =>
            have here := quiet.idle freed other
            rw [show s.submits other = _ from at_] at here
            cases here
        | _ => exact quiet.idle freed t
      · intro task code result
        cases event with
        | submitNoMemory => exact synchronised.elim
        | submitSignal other k | submitSignalUnheard other k =>
            change Function.update s.results k (some .ok) task = some code at result
            by_cases same : task = k
            · rw [same, Function.update_self] at result
              cases result
              exact .inl rfl
            · rw [Function.update_of_ne same] at result
              exact quiet.answered task code result
        | submitRefuse other k =>
            change Function.update s.results k (some .invalidState) task = some code at result
            by_cases same : task = k
            · rw [same, Function.update_self] at result
              cases result
              exact .inr rfl
            · rw [Function.update_of_ne same] at result
              exact quiet.answered task code result
        | _ => exact quiet.answered task code result

theorem SynchronisedRun.quiet (run : SynchronisedRun n s) (positive : 0 < n) : Quiet s := by
  induction run with
  | created =>
      constructor
      · rfl
      · exact fun freed => by cases freed
      · exact fun task code result => by cases result
  | step run synchronised step inductionHypothesis =>
      exact inductionHypothesis.step (poolInvariant_of_reachable positive run.reachable)
        synchronised step

/-- In every run whose steps are synchronised, no submit uses the freed pool:
a submit from a task is over when the worker that runs it has been joined. -/
theorem threadPool_safelyDestroyed (positive : 0 < n) (run : SynchronisedRun n s) :
    SafelyDestroyed s := by
  have quiet := run.quiet positive
  constructor
  · exact quiet.unharmed
  · intro freed t task here
    rw [quiet.idle freed t] at here
    cases here
  · exact quiet.answered

/-- The event asks nothing of the callers but that the pool is there. -/
def PoolEvent.asksAlive : PoolEvent → Bool
  | .submitNoMemory _ _ | .destroyFree => false
  | _ => true

/-- Only the free frees the pool. -/
theorem PoolState.act_alive (plain : event.asksAlive = true) (alive : s.freed = false) :
    (s.act event).freed = false := by
  cases event with
  | destroyFree => cases plain
  | _ => exact alive

theorem synchronised_of_alive (plain : event.asksAlive = true) (alive : s.freed = false) :
    Synchronised s event := by
  cases event with
  | submitCall => exact alive
  | submitNoMemory | destroyFree => cases plain
  | _ => trivial

/-- Up to the free every run of events is synchronised whose allocations succeed. -/
theorem SynchronisedRun.runEvents {events : List PoolEvent}
    (plain : ∀ event ∈ events, event.asksAlive = true) :
    ∀ {s s' : PoolState}, SynchronisedRun n s → s.freed = false →
      s.runEvents n events = some s' → SynchronisedRun n s' := by
  induction events with
  | nil =>
      intro s s' run _ runs
      cases runs
      exact run
  | cons event rest inductionHypothesis =>
      intro s s' run alive runs
      have here := plain event List.mem_cons_self
      rw [PoolState.runEvents] at runs
      split at runs
      · rename_i enabled
        obtain ⟨at_, ready, untouched⟩ := enabled
        have first := run.step (synchronised_of_alive here alive) (.act at_ ready untouched)
        exact inductionHypothesis (fun other member => plain other (List.mem_cons_of_mem event member))
          first (PoolState.act_alive here alive) runs
      · cases runs

/-- The thread that an event takes on in submit. -/
def PoolEvent.submitter? : PoolEvent → Option Thread
  | .submitCall t | .submitAllocate t _ | .submitNoMemory t _ | .submitLock t _
  | .submitCheck t _ | .submitEnqueue t _ | .submitUnlock t _ | .submitSignal t _ _
  | .submitSignalUnheard t _ | .submitRefuse t _ => some t
  | _ => none

theorem PoolState.act_submits {t : Thread} (other : event.submitter? ≠ some t) :
    (s.act event).submits t = s.submits t := by
  cases event with
  | submitCall u | submitAllocate u | submitNoMemory u | submitLock u | submitCheck u
  | submitEnqueue u | submitUnlock u | submitSignal u | submitSignalUnheard u | submitRefuse u =>
      have apart : t ≠ u := fun same => other (congrArg some same.symm)
      exact Function.update_of_ne apart _ _
  | _ => rfl

/-- A thread that no event takes on stays where it is. -/
theorem PoolState.runEvents_submits {t : Thread} {events : List PoolEvent}
    (others : ∀ event ∈ events, event.submitter? ≠ some t) :
    ∀ {s s' : PoolState}, s.runEvents n events = some s' → s'.submits t = s.submits t := by
  induction events with
  | nil =>
      intro s s' runs
      cases runs
      rfl
  | cons event rest inductionHypothesis =>
      intro s s' runs
      rw [PoolState.runEvents] at runs
      split at runs
      · rw [inductionHypothesis (fun other member => others other (List.mem_cons_of_mem event member))
            runs]
        exact PoolState.act_submits (others event List.mem_cons_self)
      · cases runs

end Runs

/-- A caller submits a task, and the task submits another one.  When the worker
has run both and sleeps, the pool is destroyed, up to the free. -/
def destroyAfterTasks : List PoolEvent :=
  submitEvents (.client 0) 0 ++
    [.workerLock 0, .workerTake 0 0, .workerUnlockRun 0 0, .workerCall 0 0] ++
    submitEvents (.worker 0) 1 ++ [.workerReturn 0 0] ++ workerEvents 0 1 ++
    [.workerLock 0, .workerWait 0, .destroyCall, .destroyLock, .destroyFlag, .destroyUnlock,
      .destroyBroadcast, .workerLock 0, .workerLeave 0, .workerUnlockExit 0, .destroyJoin 0,
      .destroyJoined 1]

/-- Both calls of submit are over before the free. -/
theorem threadPool_safelyDestroyed_afterTasks :
    ∃ s, (PoolState.created 1).runEvents 1 destroyAfterTasks = some s ∧
      s.results 0 = some .ok ∧ s.results 1 = some .ok ∧ s.finished = [0, 1] ∧
      SafelyDestroyed (s.act .destroyFree) := by
  have runs : ((PoolState.created 1).runEvents 1 destroyAfterTasks).map
      (fun s => (s.submits (.client 0), s.destroyer, s.freed, s.results 0, s.results 1, s.finished)) =
        some (.idle, .drain none, false, some .ok, some .ok, [0, 1]) := rfl
  obtain ⟨s, run, state⟩ := Option.map_eq_some_iff.mp runs
  simp only [Prod.mk.injEq] at state
  obtain ⟨caller, drained, alive, accepted, nested, finished⟩ := state
  have before := SynchronisedRun.runEvents (by decide) (.created (n := 1)) rfl run
  have synchronised : Synchronised s .destroyFree := by
    intro c
    by_cases same : c = 0
    · rw [same]
      exact caller
    · apply PoolState.runEvents_submits _ run
      have others : ∀ event ∈ destroyAfterTasks,
          event.submitter? ∈ [none, some (.client 0), some (.worker 0)] := by
        decide
      intro event member taken
      have known := others event member
      rw [taken] at known
      simp [same] at known
  have free : PoolStep 1 s .destroyFree (s.act .destroyFree) :=
    .act drained trivial (fun _ => alive)
  exact ⟨s, run, accepted, nested, finished,
    threadPool_safelyDestroyed (by decide) (before.step synchronised free)⟩

/-- Destroy sets the flag, joins the workers and frees the pool while a submit
stands between its unlock and its signal. -/
def destroyBeforeSignal : List PoolEvent :=
  (submitEvents (.client 0) 0).take 6 ++
    [.destroyCall, .destroyLock, .destroyFlag, .destroyUnlock, .destroyBroadcast] ++
    workerEvents 0 0 ++
    [.workerLock 0, .workerLeave 0, .workerUnlockExit 0, .destroyJoin 0, .destroyJoined 1,
      .destroyFree]

/-- A submit that acquired the lock before destroy set the flag signals on the
condition variable of the freed pool. -/
theorem not_safelyDestroyed : ¬ ∀ s, Reachable 1 s → SafelyDestroyed s := by
  intro safe
  have runs : ((PoolState.created 1).runEvents 1 destroyBeforeSignal).map
      (fun s => (s.submits (.client 0), s.freed)) = some (.signal 0, true) := by
    decide
  obtain ⟨s, run, state⟩ := Option.map_eq_some_iff.mp runs
  obtain ⟨signal, freed⟩ := Prod.mk.inj state
  have fault : PoolStep 1 s (.submitSignalUnheard (.client 0) 0) { s with faulted := true } :=
    .fault signal rfl freed
  have unharmed := (safe _ ((Reachable.created.runEvents run).step fault)).unharmed
  cases unharmed

end Dotten
