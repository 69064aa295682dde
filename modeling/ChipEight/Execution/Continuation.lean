import ChipEight.Instruction
import ChipEight.State

/-!
# Where instructions continue

The counter after an instruction.  Most instructions go on at the next word,
skips pass over one more, and a wait without a key stays where it is.  A
counter has to be a word: a continuation past the last one is a crash.
-/

namespace ChipEight

namespace Word

/-- The word a distance further on. -/
def advance (word : Word) (distance : Nat) : Except Crash Word :=
  if word.toNat + distance < 65536 then
    .ok (word + UInt16.ofNat distance)
  else
    .error .counterOverflow

end Word

namespace Instruction

/-- Whether an instruction skips the next one. -/
def skips (state : State) : Instruction → Bool
  | skipIfByte x constant => state.register x == constant
  | skipUnlessByte x constant => state.register x != constant
  | skipIfEqual x y => state.register x == state.register y
  | skipUnlessEqual x y => state.register x != state.register y
  | skipIfDown x => state.keypad.isDown (state.register x)
  | skipUnlessDown x => !state.keypad.isDown (state.register x)
  | _ => false

/-- Where a return continues: after the call that it answers. -/
def returnTarget (stack : CallStack) : Except Crash Word :=
  match stack.slot? stack.top with
  | some address => address.advance 2
  | none => .error (.indexOutOfBounds stack.top)

/-- The counter after an instruction. -/
def continuation (state : State) : Instruction → Except Crash Word
  | jump target => .ok target
  | call target => .ok target
  | leave => returnTarget state.stack
  | jumpBeyond base => base.advance (state.register 0).toNat
  | awaitKey _ =>
    match state.keypad.lowest? with
    | some _ => state.counter.advance 2
    | none => .ok state.counter
  | instruction =>
    state.counter.advance (if instruction.skips state then 4 else 2)

end Instruction

end ChipEight
