import ChipEight.Proofs.Instruction.Continuation
import ChipEight.Proofs.Instruction.Footprint

/-!
# Instructions and adjustments from outside

The timers, the keypad and the redraw flag also change while no instruction
runs.  Such a change is an adjustment of a state.  Three families of
instructions look at one of these parts or write it; every other instruction
does the same before an adjustment as after it.
-/

namespace ChipEight

/-- A change of the timers, the keypad and the redraw flag. -/
structure Adjustment where
  timers : Countdown → Countdown := id
  keypad : Keypad → Keypad := id
  redraw : Bool → Bool := id

namespace State

/-- The state after a change from outside. -/
def adjust (state : State) (adjustment : Adjustment) : State :=
  { state with
    timers := adjustment.timers state.timers
    keypad := adjustment.keypad state.keypad
    redraw := adjustment.redraw state.redraw }

end State

namespace Instruction

def usesTimers : Instruction → Bool
  | readDelay _ | setDelay _ | setSound _ => true
  | _ => false

def usesKeys : Instruction → Bool
  | skipIfDown _ | skipUnlessDown _ | awaitKey _ => true
  | _ => false

/-- Whether an adjustment leaves alone what an instruction looks at. -/
structure Ignores (instruction : Instruction) (adjustment : Adjustment) :
    Prop where
  timers : instruction.usesTimers = true → adjustment.timers = id
  keypad : instruction.usesKeys = true → adjustment.keypad = id
  redraw : instruction.changesFrame = true → adjustment.redraw = id

variable {instruction : Instruction} {adjustment : Adjustment}

theorem fault?_adjust (instruction : Instruction) (state : State)
    (adjustment : Adjustment) :
    instruction.fault? (state.adjust adjustment) =
      instruction.fault? state := by
  cases instruction <;> rfl

theorem continuation_adjust (ignores : instruction.Ignores adjustment)
    (state : State) :
    instruction.continuation (state.adjust adjustment) =
      instruction.continuation state := by
  have sameKeys : instruction.usesKeys = true →
      (state.adjust adjustment).keypad = state.keypad := by
    intro uses
    rw [State.adjust, ignores.keypad uses, id]
  cases instruction with
  | skipIfDown x =>
      unfold continuation skips
      rw [sameKeys rfl]
      rfl
  | skipUnlessDown x =>
      unfold continuation skips
      rw [sameKeys rfl]
      rfl
  | awaitKey x =>
      rw [continuation_awaitKey, continuation_awaitKey, sameKeys rfl]
      rfl
  | _ => rfl

/-- An instruction that ignores an adjustment may run before it or after. -/
theorem effect_adjust (ignores : instruction.Ignores adjustment)
    (random : UInt8) (state : State) :
    instruction.effect random (state.adjust adjustment) =
      (instruction.effect random state).adjust adjustment := by
  obtain ⟨timers, keypad, redraw⟩ := ignores
  cases instruction with
  | readDelay x | setDelay x | setSound x =>
      simp [effect, State.adjust, State.setRegister, State.register, timers rfl]
  | clearFrame | draw x y height =>
      simp [effect, drawn, sprite, State.adjust, State.register, redraw rfl]
  | awaitKey x =>
      have same : (state.adjust adjustment).keypad = state.keypad := by
        rw [State.adjust, keypad rfl, id]
      rw [effect, effect, keyTaken, keyTaken, same]
      split
      · simp [State.adjust, State.setRegister, keypad rfl]
      · rfl
  | _ => rfl

end Instruction

end ChipEight
