import Mathlib.Algebra.Group.Nat.Defs
import PipelineUpkeep.Cancellation.Retry
/-!
# How long a pause is

Two bounds stand between the base span and the longest pause: the factor stops at 2³² − 1,
which is no power of two, and the product stops at the longest span.  Neither is ever seen in
a pause.  One nanosecond times the greatest factor is longer than a second, so where the factor
has stopped the pause has stopped before, unless there is nothing to double; and the longest
span is longer than a second too.  A pause is therefore what unbounded arithmetic gives, up to
one second.
-/

namespace PipelineUpkeep

open Time

namespace OptimisticLock

theorem doublingFactor_of_lt {exponent : Nat} (h : exponent < 32) :
    doublingFactor exponent = 2 ^ exponent :=
  if_pos h

theorem doublingFactor_of_le {exponent : Nat} (h : 32 ≤ exponent) :
    doublingFactor exponent = greatestFactor :=
  if_neg (Nat.not_lt.mpr h)

theorem longestPause_le_greatestFactor : longestPause.nanoseconds ≤ greatestFactor := by
  decide

theorem longestPause_le_longest : longestPause.nanoseconds ≤ Span.longest.nanoseconds := by
  decide

/-- Up to the longest pause, the factor may as well go on doubling. -/
theorem min_mul_doublingFactor (base exponent : Nat) :
    min longestPause.nanoseconds (base * doublingFactor exponent) =
      min longestPause.nanoseconds (base * 2 ^ exponent) := by
  by_cases hSmall : exponent < 32
  · rw [doublingFactor_of_lt hSmall]
  · have hLarge : 32 ≤ exponent := Nat.not_lt.mp hSmall
    rw [doublingFactor_of_le hLarge]
    rcases Nat.eq_zero_or_pos base with rfl | hBase
    · -- Nothing grows, however often it is doubled.
      simp
    · have hStopped : longestPause.nanoseconds ≤ base * greatestFactor := by
        calc
          longestPause.nanoseconds ≤ greatestFactor := longestPause_le_greatestFactor
          _ ≤ base * greatestFactor := Nat.le_mul_of_pos_left _ hBase
      have hGrown : longestPause.nanoseconds ≤ base * 2 ^ exponent := by
        calc
          longestPause.nanoseconds ≤ 2 ^ 32 := by decide
          _ ≤ 2 ^ exponent := Nat.pow_le_pow_right Nat.two_pos hLarge
          _ ≤ base * 2 ^ exponent := Nat.le_mul_of_pos_left _ hBase
      rw [Nat.min_eq_left hStopped, Nat.min_eq_left hGrown]

/-- The bound on products is not seen behind the longest pause. -/
theorem nanoseconds_times_min_longestPause (span : Span) (factor : Nat) :
    ((span.times factor).min longestPause).nanoseconds =
      min longestPause.nanoseconds (span.nanoseconds * factor) := by
  have hBounds := longestPause_le_longest
  show min (min (span.nanoseconds * factor) Span.longest.nanoseconds) longestPause.nanoseconds = _
  omega

theorem nanoseconds_backoffFor (lock : OptimisticLock) (attempt : Nat) :
    (lock.backoffFor attempt).nanoseconds =
      min longestPause.nanoseconds (lock.backoff.nanoseconds * 2 ^ (attempt - 1)) := by
  unfold backoffFor
  rw [nanoseconds_times_min_longestPause, min_mul_doublingFactor]

/-- A pause is the base span, doubled for each attempt after the first, up to one second: no
other bound is seen in it, whatever the base and the number of the attempt are.  So pauses do
not get shorter, and none is longer than one second. -/
theorem pause_is_exact_up_to_one_second (lock : OptimisticLock) :
    (∀ attempt, (lock.backoffFor attempt).nanoseconds =
      min 1000000000 (lock.backoff.nanoseconds * 2 ^ (max attempt 1 - 1))) ∧
    (∀ attempt later, attempt ≤ later →
      (lock.backoffFor attempt).nanoseconds ≤ (lock.backoffFor later).nanoseconds) ∧
    ∀ attempt, (lock.backoffFor attempt).nanoseconds ≤ 1000000000 := by
  refine ⟨fun attempt => ?_, fun attempt later hLater => ?_, fun attempt => ?_⟩
  · have hExponent : max attempt 1 - 1 = attempt - 1 := by omega
    rw [hExponent]
    exact lock.nanoseconds_backoffFor attempt
  · have hGrown : lock.backoff.nanoseconds * 2 ^ (attempt - 1) ≤
        lock.backoff.nanoseconds * 2 ^ (later - 1) :=
      Nat.mul_le_mul_left _ (Nat.pow_le_pow_right Nat.two_pos (by omega))
    rw [nanoseconds_backoffFor, nanoseconds_backoffFor]
    omega
  · rw [nanoseconds_backoffFor]
    exact Nat.min_le_left _ _

/-- The shortest base that grows: it reaches one second before its factor stops. -/
def nanosecondLock : OptimisticLock := ⟨"demo", 5, ⟨1⟩⟩

/-- Doubled thirty times, one nanosecond is longer than a second, and the pauses stay at one
second from there on, past the last power of two and at the greatest number of an attempt. -/
theorem pause_is_exact_up_to_one_second_nanosecond :
    (nanosecondLock.backoffFor 0).nanoseconds = 1 ∧
      (nanosecondLock.backoffFor 30).nanoseconds = 536870912 ∧ 31 ≤ 4294967295 ∧
      (nanosecondLock.backoffFor 31).nanoseconds = 1000000000 ∧
      (nanosecondLock.backoffFor 4294967295).nanoseconds = 1000000000 := by
  obtain ⟨hExact, hGrows, hBound⟩ := pause_is_exact_up_to_one_second nanosecondLock
  have hReached : (nanosecondLock.backoffFor 31).nanoseconds = 1000000000 :=
    (hExact 31).trans (by decide)
  have hLast : (nanosecondLock.backoffFor 31).nanoseconds ≤
      (nanosecondLock.backoffFor 4294967295).nanoseconds := hGrows 31 4294967295 (by decide)
  refine ⟨(hExact 0).trans (by decide), (hExact 30).trans (by decide), by decide, hReached, ?_⟩
  exact Nat.le_antisymm (hBound 4294967295) (hReached ▸ hLast)

end OptimisticLock

end PipelineUpkeep
