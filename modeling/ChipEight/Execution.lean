import ChipEight.Execution.Continuation
import ChipEight.Execution.Effect
import ChipEight.Execution.Refusal
import ChipEight.Random.Source

/-!
# Executing instructions

An instruction is executed by asking first whether it is refused, then where it
continues, and by applying its effect last.  So a refusal comes before a crash,
and neither leaves anything half done.
-/

namespace ChipEight

namespace Instruction

/-- The registers an instruction uses.  A wait without a key uses none. -/
def usedRegisters (state : State) : Instruction → List UInt8
  | awaitKey x =>
    match state.keypad.lowest? with
    | some _ => [x]
    | none => []
  | instruction => instruction.namedRegisters

/-- The first register an instruction uses that there is none of. -/
def missingRegister? (state : State) (instruction : Instruction) :
    Option UInt8 :=
  (instruction.usedRegisters state).find? fun name =>
    registerCount ≤ name.toNat

/-- The state after an instruction, given the random byte it may use. -/
def execute (instruction : Instruction) (random : UInt8) (state : State) :
    Except Stop State :=
  match instruction.fault? state with
  | some fault => .error (.fault fault)
  | none =>
    match instruction.missingRegister? state with
    | some name => .error (.crash (.indexOutOfBounds name.toNat))
    | none =>
      match instruction.continuation state with
      | .error crash => .error (.crash crash)
      | .ok counter =>
        .ok { instruction.effect random state with counter := counter }

/-- Executes an instruction with bytes from a random source.  A byte that an
instruction uses is drawn whatever becomes of the instruction. -/
def executeDrawing (instruction : Instruction) (source : RandomSource)
    (state : State) : Except Stop State × RandomSource :=
  if instruction.drawsRandom then
    (instruction.execute source.byte state, source.next)
  else
    (instruction.execute 0 state, source)

end Instruction

end ChipEight
