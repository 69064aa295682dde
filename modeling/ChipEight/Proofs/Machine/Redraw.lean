import ChipEight.Machine.Loading
import ChipEight.Proofs.Instruction.Footprint
import ChipEight.Proofs.Machine.Stepping

/-!
# The redraw flag

A step raises the flag if it draws on the frame or clears it, and leaves both
the flag and the frame alone if it does not.  Keys and timers concern neither.
A reset changes the frame as well, for it blanks it, but it lowers the flag.
-/

namespace ChipEight

namespace Machine

/-- Whether a step drew on the frame or cleared it. -/
def Outcome.draws : Outcome → Bool
  | executed instruction => instruction.changesFrame
  | awaiting => false
  | faulted _ => false
  | crashed _ => false

theorem draws_outcomeOf (instruction : Instruction) (before after : State) :
    (outcomeOf instruction before after).draws =
      instruction.changesFrame :=
  apply_outcomeOf Outcome.draws (fun _ => rfl) instruction before after

/-- A step raises the flag exactly if it draws, and never lowers it. -/
theorem redraw_step (machine : Machine) :
    machine.step.machine.state.redraw =
      (machine.step.answer.draws || machine.state.redraw) := by
  have rule := machine.stepRule
  generalize machine.step = response at rule ⊢
  cases rule with
  | unfetchable past => rfl
  | unknown within fetched undecoded => rfl
  | refused within fetched decoded refusal => rfl
  | ran within fetched decoded accepted continues produced =>
      cases produced
      simp only [succeed, draws_outcomeOf]
      exact Instruction.redraw_effect _ _ _
  | crashed within fetched decoded accepted stops => rfl

theorem frame_step_of_not_draws {machine : Machine}
    (idle : machine.step.answer.draws = false) :
    machine.step.machine.state.frame = machine.state.frame := by
  have rule := machine.stepRule
  generalize machine.step = response at rule idle ⊢
  cases rule with
  | unfetchable past => rfl
  | unknown within fetched undecoded => rfl
  | refused within fetched decoded refusal => rfl
  | ran within fetched decoded accepted continues produced =>
      cases produced
      simp only [succeed, draws_outcomeOf] at idle
      exact Instruction.frame_effect_of_not_changesFrame idle _ _
  | crashed within fetched decoded accepted stops => rfl

theorem redraw_setKey (machine : Machine) (key : UInt8) (down : Bool) :
    (machine.setKey key down).machine.state.redraw =
      machine.state.redraw := by
  rw [setKey]
  split <;> rfl

theorem frame_setKey (machine : Machine) (key : UInt8) (down : Bool) :
    (machine.setKey key down).machine.state.frame = machine.state.frame := by
  rw [setKey]
  split <;> rfl

theorem redraw_load (machine : Machine) (program : List UInt8) :
    (machine.load program).machine.state.redraw = machine.state.redraw := by
  obtain ⟨memory, same⟩ := machine.exists_load_eq program
  rw [same]

theorem frame_load (machine : Machine) (program : List UInt8) :
    (machine.load program).machine.state.frame = machine.state.frame := by
  obtain ⟨memory, same⟩ := machine.exists_load_eq program
  rw [same]

end Machine

end ChipEight
