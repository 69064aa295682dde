import ChipEight.CallStack
import ChipEight.Countdown
import ChipEight.Frame
import ChipEight.Keypad
import ChipEight.Memory.Span
import ChipEight.RegisterFile
import ChipEight.Word

/-!
# Machine states

Everything a CHIP-8 machine holds between two instructions.  Programs see the
registers, the index register, the counter, the stack and memory; the frame
buffer is shown whenever `redraw` is raised; the keypad and the timers also
change from outside.
-/

namespace ChipEight

/-- A snapshot of the machine. -/
structure State where
  registers : RegisterFile
  /-- The address that memory and sprite instructions work at. -/
  index : Word
  /-- The address of the next instruction. -/
  counter : Word
  stack : CallStack
  timers : Countdown
  memory : Memory
  frame : Frame
  /-- Raised when the frame was drawn on, lowered by whoever shows it. -/
  redraw : Bool
  keypad : Keypad
  deriving DecidableEq

namespace State

/-- The state of a new machine: all zero but for the font and the counter,
which points at the start of programs. -/
def initial : State :=
  { registers := RegisterFile.zero,
    index := 0,
    counter := programStart,
    stack := CallStack.empty,
    timers := Countdown.stopped,
    memory := Memory.initial,
    frame := Frame.blank,
    redraw := false,
    keypad := Keypad.released }

def register (state : State) (name : UInt8) : UInt8 :=
  state.registers.get name

def setRegister (state : State) (name value : UInt8) : State :=
  { state with registers := state.registers.set name value }

/-- The state with a register and the flag replaced.  The register is written
last, so that it keeps its value when it is the flag itself. -/
def setFlagged (state : State) (name value flag : UInt8) : State :=
  { state with registers := (state.registers.setFlag flag).set name value }

/-- The span of memory from the index register on. -/
def span (state : State) (length : Nat) : Span :=
  { start := state.index, length := length }

/-- The instruction word at the counter. -/
def fetch (state : State) : Except Fault Word :=
  match ({ start := state.counter, length := 2 } : Span).readFault? with
  | some fault => .error fault
  | none =>
    .ok (Word.ofBytes (state.memory.byte state.counter.toNat)
      (state.memory.byte (state.counter.toNat + 1)))

end State

end ChipEight
