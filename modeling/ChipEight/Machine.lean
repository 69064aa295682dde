import ChipEight.Execution
import ChipEight.Machine.Record

/-!
# The machine

A state together with a random source and the fault of the latest step, which
is kept so that a machine stuck on one fault does not warn of it forever.  An
operation answers with the machine after it, what it found out, and the records
it made.

The machine has no clock: whoever owns it decides how fast to step it and how
often its timers tick.
-/

namespace ChipEight

structure Machine where
  state : State
  random : RandomSource
  /-- The fault of the latest step, if it had one. -/
  lastFault : Option Fault

namespace Machine

/-- What an operation leads to. -/
structure Response (Answer : Type) where
  machine : Machine
  answer : Answer
  records : List Record

def new (random : RandomSource) : Machine :=
  { state := State.initial, random := random, lastFault := none }

/-- A new machine whose random bytes follow from a seed. -/
def ofSeed (seed : UInt64) : Machine :=
  new (RandomSource.ofSeed seed)

/-- Goes back to the first state.  The random source goes on where it is. -/
def reset (machine : Machine) : Response Unit :=
  { machine := { machine with state := State.initial, lastFault := none },
    answer := (),
    records := [.reset] }

/-- Presses or releases a key.  A byte that names no key is ignored. -/
def setKey (machine : Machine) (key : UInt8) (down : Bool) : Response Unit :=
  if Keypad.names key then
    { machine :=
        { machine with
          state :=
            { machine.state with
              keypad := machine.state.keypad.set key down } },
      answer := (),
      records := [] }
  else
    { machine := machine, answer := (), records := [.keyIgnored key] }

/-- Lets both timers tick once.  The answer tells whether a tone is due. -/
def tick (machine : Machine) : Response Bool :=
  { machine :=
      { machine with
        state :=
          { machine.state with timers := machine.state.timers.next } },
    answer := machine.state.timers.expires,
    records := [] }

/-- The frame, if it should be shown. -/
def frame? (machine : Machine) : Option Frame :=
  if machine.state.redraw then some machine.state.frame else none

/-- Notes that the frame has been shown. -/
def clearRedraw (machine : Machine) : Machine :=
  { machine with state := { machine.state with redraw := false } }

/-- Takes the frame to show it, if it should be shown. -/
def takeFrame (machine : Machine) : Response (Option Frame) :=
  { machine := machine.clearRedraw,
    answer := machine.frame?,
    records := [] }

end Machine

end ChipEight
