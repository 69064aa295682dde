import Mathlib.Algebra.Ring.Nat
import ChipEight.Pacing

/-!
# The pace of a loop

A loop works for some time in each turn and then waits for its pacer.  A turn
takes as long as its work, but no less than a period, and the period is the
longest whole number of nanoseconds that fits into a second as often as the rate
says.  From a rate of more than a billion on, that is none at all: such a loop
never sleeps, and turns without work take no time.
-/

namespace ChipEight

namespace Pacer

/-- When a loop wakes after turns whose work takes the given times. -/
def turnsUntil (pacer : Pacer) (now : Nat) : List Nat → Nat
  | [] => now
  | work :: rest =>
    (pacer.wait (now + work)).turnsUntil (pacer.wakeTime (now + work)) rest

theorem periodOf_of_pos {rate : Nat} (positive : 0 < rate) :
    periodOf rate = second / rate := by
  rw [periodOf, Nat.max_eq_left positive]

theorem periodOf_mul_le {rate : Nat} (positive : 0 < rate) :
    periodOf rate * rate ≤ second := by
  rw [periodOf_of_pos positive]
  exact Nat.div_mul_le_self second rate

theorem lt_periodOf_add_one_mul {rate : Nat} (positive : 0 < rate) :
    second < (periodOf rate + 1) * rate := by
  rw [periodOf_of_pos positive, Nat.mul_comm]
  exact Nat.lt_mul_div_succ second positive

theorem periodOf_pos_iff {rate : Nat} (positive : 0 < rate) :
    0 < periodOf rate ↔ rate ≤ second := by
  rw [periodOf_of_pos positive, Nat.div_pos_iff]
  exact and_iff_right positive

theorem wakeTime_of_awake {pacer : Pacer} {now : Nat}
    (awake : pacer.last = now) (work : Nat) :
    pacer.wakeTime (now + work) = now + max pacer.period work := by
  rw [wakeTime, pause, awake]
  omega

/-- A turn takes as long as its work, but at least a period. -/
theorem turnsUntil_eq {pacer : Pacer} {now : Nat} (awake : pacer.last = now)
    (works : List Nat) :
    pacer.turnsUntil now works =
      now + (works.map fun work => max pacer.period work).sum := by
  induction works generalizing pacer now with
  | nil => rfl
  | cons work rest ih =>
      have woken : (pacer.wait (now + work)).last =
          pacer.wakeTime (now + work) := rfl
      rw [turnsUntil, ih woken, wakeTime_of_awake awake, List.map_cons,
        List.sum_cons, Nat.add_assoc]
      rfl

/-- Both loops keep the pace that they are asked for, whichever rate of their
range it is.  The period is as near to its share of a second as whole
nanoseconds allow, and turns take as long as their work but at least the period.
There is a period to sleep off exactly if the rate is at most a billion, and
turns at a higher rate take no longer than their work. -/
theorem turns_paced_up_to_billion {rate : Nat}
    (accepted : 1 ≤ rate ∧ rate ≤ 4294967295) :
    periodOf rate * rate ≤ 10 ^ 9 ∧ 10 ^ 9 < (periodOf rate + 1) * rate ∧
      (0 < periodOf rate ↔ rate ≤ 10 ^ 9) ∧
      ∀ (now : Nat) (works : List Nat),
        let ended := (start rate now).turnsUntil now works
        ended = now + (works.map fun work => max (periodOf rate) work).sum ∧
          (10 ^ 9 < rate → ended = now + works.sum) := by
  obtain ⟨positive, _⟩ := accepted
  have paced : 0 < periodOf rate ↔ rate ≤ 10 ^ 9 := periodOf_pos_iff positive
  refine ⟨periodOf_mul_le positive, lt_periodOf_add_one_mul positive, paced, ?_⟩
  intro now works ended
  have awake : (start rate now).last = now := rfl
  have turns := turnsUntil_eq awake works
  refine ⟨turns, ?_⟩
  intro fast
  have none : (start rate now).period = 0 := by
    change periodOf rate = 0
    omega
  rw [show ended = _ from turns, none]
  simp

/-- The highest rate that still has a period: turns without work take a
nanosecond each, and one that works for longer is not held up. -/
theorem turns_paced_up_to_billion_inclusive :
    (1 ≤ 1000000000 ∧ 1000000000 ≤ 4294967295) ∧
      0 < periodOf 1000000000 ∧
      (start 1000000000 5).turnsUntil 5 [0, 3, 0] = 10 := by
  have accepted : 1 ≤ 1000000000 ∧ 1000000000 ≤ 4294967295 := by decide
  obtain ⟨_, _, paced, turns⟩ := turns_paced_up_to_billion accepted
  refine ⟨accepted, paced.mpr (by decide), ?_⟩
  rw [(turns 5 [0, 3, 0]).1]
  decide

/-- The next rate is in range and leaves no period, and turns without work take
no time. -/
theorem period_vanishes_above_billion :
    (1 ≤ 1000000001 ∧ 1000000001 ≤ 4294967295) ∧
      ¬ 0 < periodOf 1000000001 ∧
      (start 1000000001 5).turnsUntil 5 [0, 0, 0] = 5 := by
  decide

end Pacer

end ChipEight
