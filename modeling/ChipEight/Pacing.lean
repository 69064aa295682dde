import ChipEight.Layout

/-!
# Pacing

A pacer holds a loop to a rate: at the end of each turn it sleeps for what is
left of a period since it last woke.  Times are in nanoseconds on a clock that
never goes back.  A rate of zero is taken as one.
-/

namespace ChipEight

abbrev second : Nat := 1000000000

/-- A pacer by the length of a turn and the time of its latest wake. -/
structure Pacer where
  period : Nat
  last : Nat
  deriving DecidableEq

namespace Pacer

/-- The length of a turn at a rate per second. -/
def periodOf (rate : Nat) : Nat :=
  second / max rate 1

def start (rate now : Nat) : Pacer :=
  { period := periodOf rate, last := now }

/-- How long to sleep at some time. -/
def pause (pacer : Pacer) (now : Nat) : Nat :=
  pacer.period - (now - pacer.last)

/-- The time after sleeping. -/
def wakeTime (pacer : Pacer) (now : Nat) : Nat :=
  now + pacer.pause now

/-- The pacer after sleeping. -/
def wait (pacer : Pacer) (now : Nat) : Pacer :=
  { pacer with last := pacer.wakeTime now }

/-- The time after a number of waits with nothing between them. -/
def idleUntil (pacer : Pacer) (now : Nat) : Nat → Nat
  | 0 => now
  | count + 1 =>
    (pacer.wait now).idleUntil (pacer.wakeTime now) count

/-- A wait ends no earlier than a period after the one before it. -/
theorem last_add_period_le_wakeTime (pacer : Pacer) (now : Nat)
    (forward : pacer.last ≤ now) :
    pacer.last + pacer.period ≤ pacer.wakeTime now := by
  simp only [wakeTime, pause]
  omega

end Pacer

end ChipEight
