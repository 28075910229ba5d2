/-
Module: Dotten.Sync.TimedWait
Layer: Sync
Purpose: `ten_cond_wait_timeout` on both systems: the deadline and the duration
  that it passes to them, and whether it answers before the time is over.
Imports: Dotten.Sync.TenMutex
Main exports: Timespec, waitDeadline, Posix.tenCondWaitTimeout,
  Windows.tenCondWaitTimeout, NeverCutShort, waitDeadline_exact,
  notShorter_iff, timedWait_iff, timedWait_cut_short
-/
import Dotten.Sync.TenMutex
import Mathlib.Algebra.Ring.Nat
import Mathlib.Algebra.Ring.Int.Defs

namespace Dotten

open Dotten.Library

/-- `struct timespec`. -/
structure Timespec where
  sec : Int
  nsec : Int
deriving DecidableEq, Repr

/-- The time in nanoseconds. -/
def Timespec.nanos (time : Timespec) : Int := time.sec * 1000000000 + time.nsec

/-- A sum of signed integers of `bits` bits, or `none` when it overflows. -/
def signedAdd (bits : Nat) (a b : Int) : Option Int :=
  if -((2 ^ (bits - 1) : Nat) : Int) ≤ a + b ∧ a + b < (2 ^ (bits - 1) : Nat) then some (a + b)
  else none

/-- A conversion to a signed integer of `bits` bits. -/
def toSigned (bits : Nat) (n : UInt64) : Int := (n.toNat : Int).bmod (2 ^ bits)

/-- The deadline of the POSIX `ten_cond_wait_timeout`, where `time_t` has 64 bits
and `long` has `longBits`. -/
def waitDeadline (longBits : Nat) (now : Timespec) (milliseconds : UInt64) : Option Timespec := do
  let sec ← signedAdd 64 now.sec (toSigned 64 (milliseconds / 1000))
  let nsec ← signedAdd longBits now.nsec (toSigned longBits (milliseconds % 1000 * 1000000))
  if nsec ≥ 1000000000 then
    let sec ← signedAdd 64 sec 1
    let nsec ← signedAdd longBits nsec (-1000000000)
    return { sec, nsec }
  else
    return { sec, nsec }

/-- What the POSIX system does in a call: the time that `clock_gettime` reads, what
`pthread_cond_timedwait` returns for a deadline, and the time when it does. -/
structure PosixWait where
  now : Timespec
  timedwait : Timespec → PthreadRc
  clock : Timespec → Timespec

/-- `ETIMEDOUT` says that the deadline has passed. -/
def PosixWait.Documented (wait : PosixWait) : Prop :=
  ∀ deadline, wait.timedwait deadline = .etimedout → deadline.nanos ≤ (wait.clock deadline).nanos

/-- What `SleepConditionVariableCS` answers: that it was woken, or FALSE with the
last error `ERROR_TIMEOUT` or another one. -/
inductive SleepResult where
  | woken
  | timedOut
  | failed
deriving DecidableEq, Repr

/-- What Windows does in a call: the answer of `SleepConditionVariableCS` to a
duration in milliseconds, and the time that has passed by then. -/
structure WindowsWait where
  sleep : UInt32 → SleepResult
  elapsed : UInt32 → Nat

/-- `INFINITE`. -/
def infinite : UInt32 := 0xFFFFFFFF

/-- `ERROR_TIMEOUT` says that the duration has passed, which an infinite one does
not. -/
def WindowsWait.Documented (wait : WindowsWait) : Prop :=
  ∀ duration, wait.sleep duration = .timedOut →
    duration ≠ infinite ∧ duration.toNat ≤ wait.elapsed duration

/-- `ten_cond_wait_timeout` of sync_posix.c. -/
def Posix.tenCondWaitTimeout (longBits : Nat) (wait : PosixWait) (cond mutex : Option Nat)
    (milliseconds : UInt64) : Ten TenErrorCode :=
  match cond, mutex with
  | some _, some _ => do
      let some deadline := waitDeadline longBits wait.now milliseconds
        | stuck
      match wait.timedwait deadline with
      | .zero =>
          tenSetError .ok
          return .ok
      | .etimedout =>
          tenSetError .timeout
          return .timeout
      | _ =>
          tenSetError .system
          return .system
  | _, _ => do
      tenSetError .nullArgument
      return .nullArgument

/-- `ten_cond_wait_timeout` of sync_windows.c. -/
def Windows.tenCondWaitTimeout (wait : WindowsWait) (cond mutex : Option Nat)
    (milliseconds : UInt64) : Ten TenErrorCode :=
  match cond, mutex with
  | some _, some _ => do
      match wait.sleep milliseconds.toUInt32 with
      | .timedOut =>
          tenSetError .timeout
          return .timeout
      | .failed =>
          tenSetError .system
          return .system
      | .woken =>
          tenSetError .ok
          return .ok
  | _, _ => do
      tenSetError .nullArgument
      return .nullArgument

/-- The duration is not over before the milliseconds are. -/
def NotShorter (milliseconds : UInt64) (duration : UInt32) : Prop :=
  duration = infinite ∨ milliseconds.toNat ≤ duration.toNat

/-- The deadline is exact and in range, and no sum on the way overflows. -/
def ExactDeadline (longBits : Nat) (now : Timespec) (milliseconds : UInt64) : Prop :=
  ∃ deadline, waitDeadline longBits now milliseconds = some deadline ∧
    0 ≤ deadline.nsec ∧ deadline.nsec < 1000000000 ∧
    deadline.nanos = now.nanos + milliseconds.toNat * 1000000

/-- A timeout of the POSIX backend comes when the milliseconds are over. -/
def PosixTimeouts (longBits : Nat) (now : Timespec) (milliseconds : UInt64) : Prop :=
  ∀ wait : PosixWait, wait.Documented → wait.now = now → ∀ cond mutex grants world,
    Returns (Posix.tenCondWaitTimeout longBits wait cond mutex milliseconds) grants world
      (fun code _ => code = .timeout → ∃ deadline,
        waitDeadline longBits now milliseconds = some deadline ∧
          now.nanos + milliseconds.toNat * 1000000 ≤ (wait.clock deadline).nanos)

/-- A timeout of the Windows backend comes when the milliseconds are over. -/
def WindowsTimeouts (milliseconds : UInt64) : Prop :=
  ∀ wait : WindowsWait, wait.Documented → ∀ cond mutex grants world,
    Returns (Windows.tenCondWaitTimeout wait cond mutex milliseconds) grants world
      (fun code _ => code = .timeout →
        milliseconds.toNat ≤ wait.elapsed milliseconds.toUInt32)

/-- What the two backends owe to a wait for the milliseconds from now on. -/
structure NeverCutShort (longBits : Nat) (now : Timespec) (milliseconds : UInt64) : Prop where
  deadline : ExactDeadline longBits now milliseconds
  duration : NotShorter milliseconds milliseconds.toUInt32
  posix : PosixTimeouts longBits now milliseconds
  windows : WindowsTimeouts milliseconds

/-- A call that reports another code owes nothing for a timeout. -/
theorem returns_other_code {code : TenErrorCode} (other : code ≠ .timeout) {owed : Prop}
    {grants : Schedule} {world : World} :
    Returns (do tenSetError code; return code : Ten TenErrorCode) grants world
      (fun reply _ => reply = .timeout → owed) := by
  simp only [returns_bind, returns_tenSetError, returns_pure]
  intro timeout
  exact absurd timeout other

section Posix

theorem signedAdd_of_bounds {bits : Nat} {a b : Int} (bound : Nat)
    (enough : bound ≤ 2 ^ (bits - 1)) (low : -(bound : Int) ≤ a + b) (high : a + b < bound) :
    signedAdd bits a b = some (a + b) := by
  rw [signedAdd, if_pos]
  generalize 2 ^ (bits - 1) = limit at enough ⊢
  omega

theorem toSigned_of_small {bits : Nat} {n : UInt64} (bound : Nat) (enough : bound * 2 ≤ 2 ^ bits)
    (small : n.toNat < bound) : toSigned bits n = n.toNat := by
  rw [toSigned]
  generalize 2 ^ bits = limit at enough ⊢
  exact Int.bmod_eq_of_le_mul_two (by omega) (by omega)

variable {longBits : Nat} {now : Timespec}

/-- The deadline is now and the milliseconds, with the carry in the seconds. -/
theorem waitDeadline_exact (long : 32 ≤ longBits) (secLow : 0 ≤ now.sec)
    (secHigh : now.sec < 2 ^ 62) (nsecLow : 0 ≤ now.nsec) (nsecHigh : now.nsec < 10 ^ 9)
    (milliseconds : UInt64) : ExactDeadline longBits now milliseconds := by
  have word := milliseconds.toNat_lt
  have seconds : (milliseconds / 1000).toNat = milliseconds.toNat / 1000 := by simp
  have rest : (milliseconds % 1000 * 1000000).toNat = milliseconds.toNat % 1000 * 1000000 := by
    simp
    omega
  have wide : 2 ^ 31 ≤ 2 ^ (longBits - 1) := Nat.pow_le_pow_right (by decide) (by omega)
  have wider : 2 ^ 31 * 2 ≤ 2 ^ longBits := by
    rw [← Nat.pow_succ]
    exact Nat.pow_le_pow_right (by decide) (by omega)
  have toSec : toSigned 64 (milliseconds / 1000) = (milliseconds.toNat / 1000 : Nat) := by
    rw [toSigned_of_small (2 ^ 62) (by decide) (by omega), seconds]
  have toNsec : toSigned longBits (milliseconds % 1000 * 1000000) =
      (milliseconds.toNat % 1000 * 1000000 : Nat) := by
    rw [toSigned_of_small (2 ^ 31) wider (by omega), rest]
  have addSec : signedAdd 64 now.sec (milliseconds.toNat / 1000 : Nat) =
      some (now.sec + (milliseconds.toNat / 1000 : Nat)) :=
    signedAdd_of_bounds (2 ^ 63) (by decide) (by omega) (by omega)
  have addNsec : signedAdd longBits now.nsec (milliseconds.toNat % 1000 * 1000000 : Nat) =
      some (now.nsec + (milliseconds.toNat % 1000 * 1000000 : Nat)) :=
    signedAdd_of_bounds (2 ^ 31) wide (by omega) (by omega)
  unfold ExactDeadline waitDeadline
  rw [toSec, toNsec, addSec, addNsec]
  simp only [Option.bind_eq_bind, Option.bind_some]
  by_cases carry : now.nsec + (milliseconds.toNat % 1000 * 1000000 : Nat) ≥ 1000000000
  · have carrySec : signedAdd 64 (now.sec + (milliseconds.toNat / 1000 : Nat)) 1 =
        some (now.sec + (milliseconds.toNat / 1000 : Nat) + 1) :=
      signedAdd_of_bounds (2 ^ 63) (by decide) (by omega) (by omega)
    have carryNsec : signedAdd longBits
        (now.nsec + (milliseconds.toNat % 1000 * 1000000 : Nat)) (-1000000000) =
          some (now.nsec + (milliseconds.toNat % 1000 * 1000000 : Nat) + -1000000000) :=
      signedAdd_of_bounds (2 ^ 31) wide (by omega) (by omega)
    rw [if_pos carry, carrySec, carryNsec]
    refine ⟨_, rfl, ?_, ?_, ?_⟩ <;> simp only [Timespec.nanos] <;> omega
  · rw [if_neg carry]
    refine ⟨_, rfl, ?_, ?_, ?_⟩ <;> simp only [Timespec.nanos] <;> omega

/-- An exact deadline is one that no timeout comes before. -/
theorem ExactDeadline.posixTimeouts {milliseconds : UInt64}
    (exact : ExactDeadline longBits now milliseconds) :
    PosixTimeouts longBits now milliseconds := by
  obtain ⟨deadline, computed, -, -, sum⟩ := exact
  rintro wait documented rfl cond mutex grants world
  cases cond with
  | none => exact returns_other_code (by decide)
  | some cond =>
      cases mutex with
      | none => exact returns_other_code (by decide)
      | some mutex =>
          simp only [Posix.tenCondWaitTimeout, computed]
          cases answer : wait.timedwait deadline with
          | etimedout =>
              simp only [returns_bind, returns_tenSetError, returns_pure]
              intro _
              refine ⟨deadline, rfl, ?_⟩
              rw [← sum]
              exact documented deadline answer
          | zero | ebusy | other => exact returns_other_code (by decide)

end Posix

section Windows

variable {milliseconds : UInt64}

theorem toUInt32_eq_infinite :
    milliseconds.toUInt32 = infinite ↔ milliseconds.toNat % 2 ^ 32 = 2 ^ 32 - 1 := by
  rw [← UInt32.toNat_inj, UInt64.toNat_toUInt32]
  rfl

/-- The cast keeps the low half of the milliseconds, which is enough when there is
no other half or when it says `INFINITE`. -/
theorem notShorter_iff :
    NotShorter milliseconds milliseconds.toUInt32 ↔
      milliseconds.toNat < 2 ^ 32 ∨ milliseconds.toNat % 2 ^ 32 = 2 ^ 32 - 1 := by
  rw [NotShorter, toUInt32_eq_infinite, UInt64.toNat_toUInt32]
  omega

/-- A system that times out as soon as it may. -/
def punctual : WindowsWait where
  sleep duration := if duration = infinite then .woken else .timedOut
  elapsed duration := duration.toNat

theorem punctual_documented : punctual.Documented := by
  intro duration timedOut
  refine ⟨?_, Nat.le_refl _⟩
  rintro rfl
  cases timedOut

theorem windowsTimeouts_iff :
    WindowsTimeouts milliseconds ↔ NotShorter milliseconds milliseconds.toUInt32 := by
  constructor
  · intro timeouts
    by_cases endless : milliseconds.toUInt32 = infinite
    · exact .inl endless
    · have answer : punctual.sleep milliseconds.toUInt32 = .timedOut := if_neg endless
      have returns := timeouts punctual punctual_documented (some 0) (some 0) (fun _ => true) default
      simp only [Windows.tenCondWaitTimeout, answer, returns_bind, returns_tenSetError,
        returns_pure] at returns
      exact .inr (returns trivial)
  · intro duration wait documented cond mutex grants world
    cases cond with
    | none => exact returns_other_code (by decide)
    | some cond =>
        cases mutex with
        | none => exact returns_other_code (by decide)
        | some mutex =>
            simp only [Windows.tenCondWaitTimeout]
            cases answer : wait.sleep milliseconds.toUInt32 with
            | timedOut =>
                simp only [returns_bind, returns_tenSetError, returns_pure]
                intro _
                obtain ⟨finite, passed⟩ := documented _ answer
                rcases duration with endless | enough
                · exact absurd endless finite
                · exact Nat.le_trans enough passed
            | failed | woken => exact returns_other_code (by decide)

end Windows

/-- A timed wait is never cut short exactly when the milliseconds fit the 32 bits
that the Windows backend passes on, or what is left of them there means an
infinite wait. -/
theorem timedWait_iff {longBits : Nat} (long : 32 ≤ longBits) {now : Timespec}
    (secLow : 0 ≤ now.sec) (secHigh : now.sec < 2 ^ 62) (nsecLow : 0 ≤ now.nsec)
    (nsecHigh : now.nsec < 10 ^ 9) (milliseconds : UInt64) :
    NeverCutShort longBits now milliseconds ↔
      milliseconds.toNat < 2 ^ 32 ∨ milliseconds.toNat % 2 ^ 32 = 2 ^ 32 - 1 := by
  rw [← notShorter_iff]
  constructor
  · intro kept
    exact kept.duration
  · intro duration
    have exact := waitDeadline_exact long secLow secHigh nsecLow nsecHigh milliseconds
    exact ⟨exact, duration, exact.posixTimeouts, windowsTimeouts_iff.mpr duration⟩

theorem timedWait_iff_second :
    NeverCutShort 64 ⟨1700000000, 999999999⟩ 1000 ↔
      (1000 : UInt64).toNat < 2 ^ 32 ∨ (1000 : UInt64).toNat % 2 ^ 32 = 2 ^ 32 - 1 :=
  @timedWait_iff 64 (by decide) ⟨1700000000, 999999999⟩ (by decide) (by decide) (by decide)
    (by decide) 1000

/-- A wait for 2^32 milliseconds is over at once on Windows. -/
theorem timedWait_cut_short :
    punctual.Documented ∧
      Returns (Windows.tenCondWaitTimeout punctual (some 0) (some 0) 4294967296) (fun _ => true)
        default (fun code _ => code = .timeout) ∧
      punctual.elapsed (4294967296 : UInt64).toUInt32 = 0 ∧
      ¬ NeverCutShort 64 ⟨1700000000, 0⟩ 4294967296 := by
  refine ⟨punctual_documented, ⟨_, _, rfl, rfl⟩, rfl, ?_⟩
  intro kept
  have duration := kept.duration
  revert duration
  rw [notShorter_iff]
  decide

end Dotten
