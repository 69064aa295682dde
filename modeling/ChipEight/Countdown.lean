/-!
# Countdown timers

Two bytes that count down to zero apart from the program's own steps.  Programs
read and write the delay timer to pace themselves; they only write the sound
timer, which calls for a tone at the moment it runs out.
-/

namespace ChipEight

/-- The values of the delay timer and the sound timer. -/
structure Countdown where
  delay : UInt8
  sound : UInt8
  deriving DecidableEq

namespace Countdown

def stopped : Countdown :=
  { delay := 0, sound := 0 }

/-- One less, but not less than zero. -/
def lower (value : UInt8) : UInt8 :=
  if value = 0 then 0 else value - 1

def next (timers : Countdown) : Countdown :=
  { delay := lower timers.delay, sound := lower timers.sound }

/-- Whether a tick calls for a tone: the one that takes the sound timer from
one to zero does. -/
def expires (timers : Countdown) : Bool :=
  decide (timers.sound = 1)

theorem toNat_lower (value : UInt8) : (lower value).toNat = value.toNat - 1 := by
  unfold lower
  split
  · next zero => simp [zero]
  · next positive =>
    have : value.toNat ≠ 0 :=
      fun zero => positive (UInt8.toNat_inj.mp (by simpa using zero))
    have := value.toNat_lt
    rw [UInt8.toNat_sub]
    simp only [UInt8.reduceToNat]
    omega

end Countdown

end ChipEight
