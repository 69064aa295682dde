import ChipEight.Instruction
import ChipEight.State

/-!
# Faults of instructions

Which instructions a machine refuses, and with what fault.  Only calls, returns
and the four instructions that use memory can be refused.
-/

namespace ChipEight

namespace Instruction

/-- Why a state cannot execute an instruction. -/
def fault? (state : State) : Instruction → Option Fault
  | leave =>
    if state.stack.depth = 0 then
      some (.stackUnderflow state.counter)
    else
      none
  | call _ =>
    if stackCapacity ≤ state.stack.depth.toNat then
      some (.stackOverflow state.counter)
    else
      none
  | draw _ _ height => (state.span height.toNat).readFault?
  | storeDecimal _ => (state.span 3).writeFault?
  | storeRegisters x => (state.span (x.toNat + 1)).writeFault?
  | loadRegisters x => (state.span (x.toNat + 1)).readFault?
  | _ => none

end Instruction

end ChipEight
