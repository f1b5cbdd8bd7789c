/-
This file models what the time library does with the times of the job runtime, and says
when it panics.

A duration made from seconds and an instant that is moved by a duration have a value only
inside the library's ranges; outside them the library panics, which is no value here. Where
the values are there, they are those of the unbounded arithmetic.

The delay of an attempt grows with the attempt. It stays within a bound just if the initial
delay is at most a limit, which shrinks from the bound with every step of the growth.
-/

import Dohflow.JobRuntime.Jobs
import Dohflow.PaySchedule.Schedule

namespace Dohflow.JobRuntime

variable (policy : BackoffPolicy) {completedAt : Int} {seconds : Int}

/-! ### The ranges of the time library -/

/-- `i64::MAX` milliseconds, in seconds. -/
def maxDurationSeconds : Int := (2 ^ 63 - 1) / 1000

/-- The instant a day begins, in nanoseconds since the Unix epoch. -/
def dayBegins (date : Calendar.Date) : Int :=
  (date.dayNumber - Calendar.Date.dayNumber ⟨12 * 1970, 1, by decide⟩) * 86400000000000

/-- `DateTime::<Utc>::MIN_UTC` -/
def minInstant : Int := dayBegins ⟨12 * PayDates.minYear, 1, by decide⟩

/-- `DateTime::<Utc>::MAX_UTC` -/
def maxInstant : Int := dayBegins ⟨12 * (PayDates.maxYear + 1), 1, by decide⟩ - 1

/-- An instant the time library can hold. -/
def InUtc (instant : Int) : Prop := minInstant ≤ instant ∧ instant ≤ maxInstant

instance decidableInUtc (instant : Int) : Decidable (InUtc instant) :=
  inferInstanceAs (Decidable (_ ∧ _))

/-- `Duration::seconds`; none where it panics. -/
def checkedSeconds (count : Int) : Option Duration :=
  if -maxDurationSeconds ≤ count ∧ count ≤ maxDurationSeconds then some (.seconds count) else none

/-- `DateTime + Duration`; none where it panics. -/
def addDuration (instant : Timestamp) (duration : Duration) : Option Timestamp :=
  if InUtc (instant + duration) then some (instant + duration) else none

/-! ### Schedules and retries -/

/-- The next due time after a run that completed then; none where the calculation panics. -/
def Schedule.checkedNextDueAfter (calendar : Calendar) (completedAt : Timestamp) :
    Schedule → Option (Option Timestamp)
  | .once => some none
  | .interval seconds => do
    let duration ← checkedSeconds seconds
    let due ← addDuration completedAt duration
    return some due
  | .daily => (addDuration completedAt (.seconds 86400)).map some
  | .weekly => (addDuration completedAt (.seconds 604800)).map some
  | .monthly => some (calendar.addMonths completedAt 1)

/-- The delay before the attempt after this one; none where the calculation panics. -/
def BackoffPolicy.checkedDelayForAttempt (policy : BackoffPolicy) (attempt : Nat) :
    Option Duration :=
  let seconds := policy.grow^[min attempt 31 - 1] (max (policy.initial.tdiv 1000000000) 0)
  checkedSeconds (min seconds (2 ^ 63 - 1))

/-- The time of the retry after a failure that completed then; none where the calculation
panics. -/
def BackoffPolicy.checkedRetryAt (policy : BackoffPolicy) (attempt : Nat)
    (completedAt : Timestamp) : Option Timestamp := do
  let delay ← policy.checkedDelayForAttempt attempt
  addDuration completedAt delay

theorem checkedSeconds_eq_some {count : Int} {duration : Duration} :
    checkedSeconds count = some duration ↔
      (-maxDurationSeconds ≤ count ∧ count ≤ maxDurationSeconds) ∧ .seconds count = duration := by
  unfold checkedSeconds
  split_ifs with inside
  · rw [Option.some.injEq]
    exact (and_iff_right inside).symm
  · exact iff_of_false id fun both => inside both.1

/-! ### The growth of a delay -/

/-- The multiplier a delay grows by. -/
def BackoffPolicy.multiplier (policy : BackoffPolicy) : Int :=
  (max policy.multiplierBps 10000 : Nat)

/-- The initial delay in whole seconds. -/
def BackoffPolicy.initialSeconds (policy : BackoffPolicy) : Int :=
  max (policy.initial.tdiv 1000000000) 0

/-- The most whole seconds that stay within a bound when they have grown so many times. -/
def initialLimit (multiplier bound : Int) : Nat → Int
  | 0 => bound
  | steps + 1 => (10000 * (initialLimit multiplier bound steps + 1) - 1) / multiplier

theorem le_multiplier : 10000 ≤ policy.multiplier := by
  unfold BackoffPolicy.multiplier
  omega

theorem grow_eq (seconds : Int) :
    policy.grow seconds = min (seconds * policy.multiplier) (2 ^ 127 - 1) / 10000 := rfl

theorem initialLimit_bounds {multiplier bound : Int} (grows : 10000 ≤ multiplier)
    (atLeast : 0 ≤ bound) (steps : Nat) :
    0 ≤ initialLimit multiplier bound steps ∧ initialLimit multiplier bound steps ≤ bound := by
  induction steps with
  | zero => exact ⟨atLeast, le_rfl⟩
  | succ steps inductionHypothesis =>
    obtain ⟨low, high⟩ := inductionHypothesis
    rw [initialLimit]
    have positive : 0 < multiplier := by omega
    refine ⟨Int.ediv_nonneg (by omega) positive.le, ?_⟩
    refine (Int.lt_add_one_iff.mp (Int.ediv_lt_of_lt_mul positive ?_)).trans high
    have product : (initialLimit multiplier bound steps + 1) * 10000 ≤
        (initialLimit multiplier bound steps + 1) * multiplier :=
      Int.mul_le_mul_of_nonneg_left grows (by omega)
    omega

theorem grow_le_iff {seconds bound : Int} (representable : bound ≤ maxDurationSeconds) :
    policy.grow seconds ≤ bound ↔ seconds ≤ (10000 * (bound + 1) - 1) / policy.multiplier := by
  have positive : 0 < policy.multiplier := by
    have grows := le_multiplier policy
    omega
  unfold maxDurationSeconds at representable
  rw [Int.le_ediv_iff_mul_le positive]
  rw [grow_eq, ← Int.lt_add_one_iff, Int.ediv_lt_iff_lt_mul (by decide)]
  omega

theorem iterate_grow_le_iff {bound : Int} (atLeast : 0 ≤ bound)
    (representable : bound ≤ maxDurationSeconds) (steps : Nat) :
    policy.grow^[steps] seconds ≤ bound ↔
      seconds ≤ initialLimit policy.multiplier bound steps := by
  induction steps generalizing seconds with
  | zero => exact Iff.rfl
  | succ steps inductionHypothesis =>
    have limit := initialLimit_bounds (le_multiplier policy) atLeast steps
    rw [Function.iterate_succ_apply, inductionHypothesis, initialLimit,
      grow_le_iff policy (limit.2.trans representable)]

theorem le_grow (atLeast : 0 ≤ seconds) :
    0 ≤ policy.grow seconds ∧ min seconds (2 ^ 63 - 1) ≤ min (policy.grow seconds) (2 ^ 63 - 1) := by
  have grows := le_multiplier policy
  rw [grow_eq]
  have more : seconds * 10000 ≤ seconds * policy.multiplier :=
    Int.mul_le_mul_of_nonneg_left grows atLeast
  omega

theorem min_iterate_grow_mono (atLeast : 0 ≤ seconds) {fewer more : Nat} (ordered : fewer ≤ more) :
    0 ≤ policy.grow^[fewer] seconds ∧
      min (policy.grow^[fewer] seconds) (2 ^ 63 - 1) ≤
        min (policy.grow^[more] seconds) (2 ^ 63 - 1) := by
  have nonnegative (steps : Nat) : 0 ≤ policy.grow^[steps] seconds := by
    induction steps with
    | zero => exact atLeast
    | succ steps inductionHypothesis =>
      rw [Function.iterate_succ_apply']
      exact (le_grow policy inductionHypothesis).1
  refine ⟨nonnegative fewer, ?_⟩
  induction ordered with
  | refl => exact le_rfl
  | step ordered inductionHypothesis =>
    rw [Nat.succ_eq_add_one, Function.iterate_succ_apply']
    exact inductionHypothesis.trans (le_grow policy (nonnegative _)).2

theorem initialSeconds_nonneg : 0 ≤ policy.initialSeconds :=
  le_max_right _ _

theorem checkedDelayForAttempt_mono {earlier later : Nat} (ordered : earlier ≤ later)
    {delay longer : Duration} (first : policy.checkedDelayForAttempt earlier = some delay)
    (second : policy.checkedDelayForAttempt later = some longer) : delay ≤ longer := by
  obtain ⟨-, rfl⟩ := checkedSeconds_eq_some.mp first
  obtain ⟨-, rfl⟩ := checkedSeconds_eq_some.mp second
  have grown := (min_iterate_grow_mono policy (initialSeconds_nonneg policy)
    (by omega : min earlier 31 - 1 ≤ min later 31 - 1)).2
  exact Int.mul_le_mul_of_nonneg_right grown (by decide)

/-! ### When nothing panics -/

/-- The whole seconds from an instant to the last one. -/
def secondsLeft (completedAt : Int) : Int := (maxInstant - completedAt) / 1000000000

theorem secondsLeft_bounds (inside : InUtc completedAt) :
    0 ≤ secondsLeft completedAt ∧ secondsLeft completedAt ≤ maxDurationSeconds := by
  obtain ⟨low, high⟩ := inside
  have range : maxInstant - minInstant ≤ maxDurationSeconds * 1000000000 := by decide +kernel
  unfold secondsLeft
  omega

theorem isSome_addDuration (inside : InUtc completedAt) (atLeast : 0 ≤ seconds) :
    (addDuration completedAt (.seconds seconds)).isSome = true ↔
      seconds ≤ secondsLeft completedAt := by
  obtain ⟨low, -⟩ := inside
  have fits : InUtc (completedAt + Duration.seconds seconds) ↔ seconds ≤ secondsLeft completedAt := by
    unfold InUtc secondsLeft Duration.seconds
    rw [Int.le_ediv_iff_mul_le (by decide)]
    omega
  rw [← fits]
  unfold addDuration
  split_ifs with moved
  · exact iff_of_true rfl moved
  · exact iff_of_false Bool.false_ne_true moved

/-- How many seconds a schedule goes ahead at least. -/
def Schedule.leastSeconds : Schedule → Int
  | .once | .monthly => 0
  | .interval seconds => seconds
  | .daily => 86400
  | .weekly => 604800

theorem isSome_checkedNextDueAfter (calendar : Calendar) (inside : InUtc completedAt)
    {schedule : Schedule} (advances : schedule.advances = true) :
    (schedule.checkedNextDueAfter calendar completedAt).isSome = true ↔
      schedule.leastSeconds ≤ secondsLeft completedAt := by
  have bounds := secondsLeft_bounds inside
  cases schedule with
  | once => exact iff_of_true rfl bounds.1
  | monthly => exact iff_of_true rfl bounds.1
  | daily =>
    rw [Schedule.checkedNextDueAfter, Option.isSome_map, isSome_addDuration inside (by decide)]
    exact Iff.rfl
  | weekly =>
    rw [Schedule.checkedNextDueAfter, Option.isSome_map, isSome_addDuration inside (by decide)]
    exact Iff.rfl
  | interval seconds =>
    have positive : 0 < seconds := of_decide_eq_true advances
    show _ ↔ seconds ≤ secondsLeft completedAt
    rw [← isSome_addDuration inside positive.le]
    by_cases made : seconds ≤ maxDurationSeconds
    · have duration : checkedSeconds seconds = some (.seconds seconds) :=
        checkedSeconds_eq_some.mpr ⟨⟨by unfold maxDurationSeconds; omega, made⟩, rfl⟩
      rw [Schedule.checkedNextDueAfter, duration, Option.bind_eq_bind, Option.bind_some]
      cases addDuration completedAt (.seconds seconds) with
      | none => rfl
      | some due => rfl
    · have panics : checkedSeconds seconds = none := if_neg fun both => made both.2
      rw [Schedule.checkedNextDueAfter, panics, isSome_addDuration inside positive.le]
      exact iff_of_false Bool.false_ne_true fun left => made (left.trans bounds.2)

theorem isSome_checkedRetryAt (attempt : Nat) (inside : InUtc completedAt) :
    ((policy.checkedDelayForAttempt attempt).isSome = true ∧
        (policy.checkedRetryAt attempt completedAt).isSome = true) ↔
      policy.initialSeconds ≤
        initialLimit policy.multiplier (secondsLeft completedAt) (min attempt 31 - 1) := by
  have bounds := secondsLeft_bounds inside
  have grown := (min_iterate_grow_mono policy (initialSeconds_nonneg policy)
    (le_refl (min attempt 31 - 1))).1
  rw [← iterate_grow_le_iff policy bounds.1 bounds.2]
  generalize seconds_eq : policy.grow^[min attempt 31 - 1] policy.initialSeconds = seconds at grown ⊢
  have clamped : seconds ≤ secondsLeft completedAt ↔
      min seconds (2 ^ 63 - 1) ≤ secondsLeft completedAt := by
    unfold maxDurationSeconds at bounds
    omega
  have delay : policy.checkedDelayForAttempt attempt = checkedSeconds (min seconds (2 ^ 63 - 1)) := by
    rw [← seconds_eq]
    rfl
  rw [clamped, ← isSome_addDuration inside (by omega), BackoffPolicy.checkedRetryAt, delay]
  by_cases made : min seconds (2 ^ 63 - 1) ≤ maxDurationSeconds
  · have duration := checkedSeconds_eq_some.mpr
      ⟨⟨by unfold maxDurationSeconds; omega, made⟩, rfl⟩
    rw [duration, Option.bind_eq_bind, Option.bind_some]
    exact and_iff_right rfl
  · have panics : checkedSeconds (min seconds (2 ^ 63 - 1)) = none := if_neg fun both => made both.2
    rw [panics, isSome_addDuration inside (by omega)]
    exact iff_of_false (fun both => Bool.false_ne_true both.1) fun left =>
      made (left.trans bounds.2)

end Dohflow.JobRuntime
