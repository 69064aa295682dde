import ChipEight.Frame.Sprite
import ChipEight.Instruction
import ChipEight.State

/-!
# Effects of instructions

What an instruction does to everything but the counter.  Operands are read from
the state before it, so that a register may be source and destination, or the
flag, at once.  The effect is defined for every state; a machine applies it
only when the instruction is not refused.
-/

namespace ChipEight

namespace Instruction

/-- A byte that is one if a condition holds and zero otherwise. -/
def flag (condition : Bool) : UInt8 :=
  if condition then 1 else 0

/-- The decimal digits of a byte, hundreds first. -/
def decimalDigits (value : UInt8) : List UInt8 :=
  [value / 100, value / 10 % 10, value % 10]

/-- The sprite that a draw instruction shows. -/
def sprite (state : State) (x y height : UInt8) : Sprite :=
  { rows := state.memory.slice state.index.toNat height.toNat,
    top := state.register y,
    left := state.register x }

/-- The state with a sprite drawn onto its frame. -/
def drawn (state : State) (sprite : Sprite) : State :=
  let canvas := state.frame.draw sprite
  { state with
    frame := canvas.frame,
    redraw := true,
    registers := state.registers.setFlag canvas.collision }

/-- The state with bytes written from the index register on. -/
def stored (state : State) (content : List UInt8) : State :=
  { state with memory := state.memory.store state.index.toNat content }

/-- The state after a key was waited for. -/
def keyTaken (state : State) (x : UInt8) : State :=
  match state.keypad.lowest? with
  | some key =>
    { state.setRegister x key with keypad := state.keypad.set key false }
  | none => state

/-- The state after an instruction, with the counter as it was. -/
def effect (random : UInt8) (state : State) : Instruction → State
  | clearFrame => { state with frame := Frame.blank, redraw := true }
  | leave => { state with stack := state.stack.pop }
  | jump _ => state
  | call _ => { state with stack := state.stack.push state.counter }
  | skipIfByte _ _ => state
  | skipUnlessByte _ _ => state
  | skipIfEqual _ _ => state
  | setByte x constant => state.setRegister x constant
  | addByte x constant =>
    state.setRegister x (state.register x + constant)
  | copy x y => state.setRegister x (state.register y)
  | union x y =>
    state.setRegister x (state.register x ||| state.register y)
  | intersect x y =>
    state.setRegister x (state.register x &&& state.register y)
  | differ x y =>
    state.setRegister x (state.register x ^^^ state.register y)
  | add x y =>
    let sum := state.register x + state.register y
    state.setFlagged x sum
      (flag ((state.register x).toNat + (state.register y).toNat > 255))
  | subtract x y =>
    state.setFlagged x (state.register x - state.register y)
      (flag (state.register y ≤ state.register x))
  | halve x =>
    state.setFlagged x (state.register x / 2) (state.register x % 2)
  | subtractFrom x y =>
    state.setFlagged x (state.register y - state.register x)
      (flag (state.register x ≤ state.register y))
  | double x =>
    state.setFlagged x (state.register x * 2) (state.register x / 128)
  | skipUnlessEqual _ _ => state
  | setIndex address => { state with index := address }
  | jumpBeyond _ => state
  | Instruction.random x mask => state.setRegister x (random &&& mask)
  | draw x y height => drawn state (sprite state x y height)
  | skipIfDown _ => state
  | skipUnlessDown _ => state
  | readDelay x => state.setRegister x state.timers.delay
  | awaitKey x => keyTaken state x
  | setDelay x =>
    { state with timers := { state.timers with delay := state.register x } }
  | setSound x =>
    { state with timers := { state.timers with sound := state.register x } }
  | advanceIndex x =>
    { state with index := state.index + (state.register x).toUInt16 }
  | findGlyph x =>
    { state with index := Font.glyphAddress (state.register x) }
  | storeDecimal x => stored state (decimalDigits (state.register x))
  | storeRegisters x => stored state (state.registers.firsts (x.toNat + 1))
  | loadRegisters x =>
    { state with
      registers := state.registers.setFirsts
        (state.memory.slice state.index.toNat (x.toNat + 1)) }

end Instruction

end ChipEight
