import ChipEight.Execution
import ChipEight.Proofs.Memory.Access
import ChipEight.Proofs.Memory.Contents

/-!
# Footprints of instructions

Which parts of a state an instruction uses and which it changes: the slot of
the call stack, the span of memory, the frame.  An instruction that is not
refused stays within the memory that there is, and one that writes stays clear
of the font.
-/

namespace ChipEight

namespace Instruction

/-- The slot of the call stack that an instruction reads or writes. -/
def slotUsed? (state : State) : Instruction → Option Nat
  | leave => some state.stack.top
  | call _ => some state.stack.depth.toNat
  | _ => none

/-- The span of memory that an instruction reads or writes. -/
def spanUsed? (state : State) : Instruction → Option Span
  | draw _ _ height => some (state.span height.toNat)
  | storeDecimal _ => some (state.span 3)
  | storeRegisters x => some (state.span (x.toNat + 1))
  | loadRegisters x => some (state.span (x.toNat + 1))
  | _ => none

def cellsFlipped (state : State) : Instruction → List Position
  | draw x y height => (sprite state x y height).lit
  | _ => []

def writesMemory : Instruction → Bool
  | storeDecimal _ => true
  | storeRegisters _ => true
  | _ => false

/-- Whether an instruction draws on the frame or clears it. -/
def changesFrame : Instruction → Bool
  | clearFrame => true
  | draw _ _ _ => true
  | _ => false

/-- Waiting for a key concerns the registers and the keypad alone. -/
theorem exists_keyTaken_eq (state : State) (x : UInt8) :
    ∃ registers keypad, keyTaken state x =
      { state with registers := registers, keypad := keypad } := by
  rw [keyTaken]
  cases state.keypad.lowest? with
  | none => exact ⟨_, _, rfl⟩
  | some key => exact ⟨_, _, rfl⟩

/-- An instruction that is not refused uses existing memory only. -/
theorem spanUsed_stop_le {instruction : Instruction} {state : State}
    (accepted : instruction.fault? state = none) {span : Span}
    (used : instruction.spanUsed? state = some span) :
    span.stop ≤ memorySize := by
  cases instruction with
  | draw x y height =>
      cases used
      exact (Span.readFault?_eq_none_iff _).mp accepted
  | loadRegisters x =>
      cases used
      exact (Span.readFault?_eq_none_iff _).mp accepted
  | storeDecimal x =>
      cases used
      exact ((Span.writeFault?_eq_none_iff _).mp accepted).1
  | storeRegisters x =>
      cases used
      exact ((Span.writeFault?_eq_none_iff _).mp accepted).1
  | _ => cases used

/-- Memory stays as it is outside the span that an instruction uses, and
everywhere if the instruction does not write to memory. -/
theorem byte_effect (random : UInt8) (state : State)
    (instruction : Instruction) (address : Nat)
    (outside : instruction.writesMemory = true →
      ∀ span, instruction.spanUsed? state = some span →
        address < span.start.toNat ∨ span.stop ≤ address) :
    (instruction.effect random state).memory.byte address =
      state.memory.byte address := by
  cases instruction with
  | storeDecimal x =>
      exact Memory.byte_store_of_outside _ _ (outside rfl _ rfl)
  | storeRegisters x =>
      apply Memory.byte_store_of_outside
      have size : (state.registers.firsts (x.toNat + 1)).length ≤
          x.toNat + 1 := by
        simp only [RegisterFile.firsts, List.length_take]
        omega
      have apart := outside rfl _ rfl
      simp only [Span.stop, State.span] at apart
      omega
  | awaitKey x =>
      obtain ⟨registers, keypad, taken⟩ := exists_keyTaken_eq state x
      rw [effect, taken]
  | _ => rfl

/-- What an instruction that is not refused writes was checked. -/
theorem writeFault?_of_accepted {instruction : Instruction} {state : State}
    (accepted : instruction.fault? state = none)
    (writes : instruction.writesMemory = true) {span : Span}
    (used : instruction.spanUsed? state = some span) :
    span.writeFault? = none := by
  cases instruction with
  | storeDecimal x => cases used; exact accepted
  | storeRegisters x => cases used; exact accepted
  | _ => cases writes

theorem byte_effect_of_font {instruction : Instruction} {state : State}
    (accepted : instruction.fault? state = none) (random : UInt8)
    {address : Nat} (first : fontStart.toNat ≤ address)
    (last : address < fontEnd.toNat) :
    (instruction.effect random state).memory.byte address =
      state.memory.byte address := by
  apply byte_effect
  intro writes span used
  have writable := writeFault?_of_accepted accepted writes used
  have clear := ((Span.writeFault?_eq_none_iff span).mp writable).2
  omega

theorem stack_effect (random : UInt8) (state : State)
    (instruction : Instruction) :
    (instruction.effect random state).stack =
      match instruction with
      | leave => state.stack.pop
      | call _ => state.stack.push state.counter
      | _ => state.stack := by
  cases instruction with
  | awaitKey x =>
      obtain ⟨registers, keypad, taken⟩ := exists_keyTaken_eq state x
      rw [effect, taken]
  | _ => rfl

/-- The redraw flag is raised by what changes the frame and never lowered. -/
theorem redraw_effect (random : UInt8) (state : State)
    (instruction : Instruction) :
    (instruction.effect random state).redraw =
      (instruction.changesFrame || state.redraw) := by
  cases instruction with
  | awaitKey x =>
      obtain ⟨registers, keypad, taken⟩ := exists_keyTaken_eq state x
      rw [effect, taken]
      rfl
  | _ => rfl

theorem frame_effect (random : UInt8) (state : State)
    (instruction : Instruction) :
    (instruction.effect random state).frame =
      match instruction with
      | clearFrame => Frame.blank
      | draw x y height => (state.frame.draw (sprite state x y height)).frame
      | _ => state.frame := by
  cases instruction with
  | awaitKey x =>
      obtain ⟨registers, keypad, taken⟩ := exists_keyTaken_eq state x
      rw [effect, taken]
  | _ => rfl

theorem frame_effect_of_not_changesFrame {instruction : Instruction}
    (unchanging : instruction.changesFrame = false) (random : UInt8)
    (state : State) :
    (instruction.effect random state).frame = state.frame := by
  rw [frame_effect]
  cases instruction with
  | clearFrame => cases unchanging
  | draw x y height => cases unchanging
  | _ => rfl

end Instruction

end ChipEight
