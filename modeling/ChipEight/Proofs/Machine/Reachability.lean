import ChipEight.Machine.History
import ChipEight.Proofs.Machine.Stepping

/-!
# Reachable machines

A machine is reachable if some operations lead to it from a new machine, with
whatever random source that had.  `State.Change` lists what an operation can do
to a state; a property of states that holds at first and survives every change
holds in every reachable machine.
-/

namespace ChipEight

/-- What one operation of a machine can make of a state. -/
inductive State.Change (before : State) : State → Prop
  | kept : Change before before
  | passed (within : before.counter.toNat ≤ 0xFFE) :
      Change before { before with counter := before.counter + 2 }
  | ran {word : Word} {instruction : Instruction} {counter : Word}
      (random : UInt8) (within : before.counter.toNat ≤ 0xFFE)
      (fetched : before.fetch = .ok word)
      (decoded : Instruction.decode word = some instruction)
      (accepted : instruction.fault? before = none)
      (continues : instruction.continuation before = .ok counter) :
      Change before
        { instruction.effect random before with counter := counter }
  | loaded (program : List UInt8) (fits : program.length ≤ programCapacity) :
      Change before
        { before with
          memory := before.memory.store programStart.toNat program }
  | ticked : Change before { before with timers := before.timers.next }
  | keySet (key : UInt8) (down : Bool) :
      Change before { before with keypad := before.keypad.set key down }
  | cleared : Change before State.initial
  | shown : Change before { before with redraw := false }

namespace Machine

/-- A machine that operations lead to from a new one. -/
def Reachable (machine : Machine) : Prop :=
  ∃ random operations, machine = (new random).run operations

/-- What every operation keeps is kept by operations in any number. -/
theorem run_keeps (Kept : Machine → Prop)
    (keeps : ∀ machine operation, Kept machine →
      Kept (machine.perform operation).machine)
    {machine : Machine} (first : Kept machine) (operations : List Operation) :
    Kept (machine.run operations) := by
  induction operations generalizing machine with
  | nil => exact first
  | cons operation rest ih => exact ih (keeps machine operation first)

theorem change_of_step (machine : Machine) :
    machine.state.Change machine.step.machine.state := by
  have rule := machine.stepRule
  generalize machine.step = response at rule ⊢
  cases rule with
  | unfetchable past => exact .kept
  | unknown within fetched undecoded => exact .passed within
  | refused within fetched decoded refusal => exact .passed within
  | ran within fetched decoded accepted continues produced =>
      cases produced
      exact .ran _ within fetched decoded accepted continues
  | crashed within fetched decoded accepted stops => exact .kept

theorem change_of_load (machine : Machine) (program : List UInt8) :
    machine.state.Change (machine.load program).machine.state := by
  rw [load]
  split
  · exact .kept
  · exact .loaded program (by omega)

theorem change_of_loadFrom (machine : Machine) (reader : List ReadOutcome) :
    machine.state.Change (machine.loadFrom reader).machine.state := by
  rw [loadFrom]
  cases ReadOutcome.readToEnd reader with
  | ok program => exact machine.change_of_load program
  | error reason => exact .kept

theorem change_of_setKey (machine : Machine) (key : UInt8) (down : Bool) :
    machine.state.Change (machine.setKey key down).machine.state := by
  rw [setKey]
  split
  · exact .keySet key down
  · exact .kept

theorem change_of_perform (machine : Machine) (operation : Operation) :
    machine.state.Change (machine.perform operation).machine.state := by
  cases operation with
  | load program => exact machine.change_of_load program
  | loadFrom reader => exact machine.change_of_loadFrom reader
  | step => exact machine.change_of_step
  | tick => exact .ticked
  | setKey key down => exact machine.change_of_setKey key down
  | reset => exact .cleared
  | frame => exact .kept
  | takeFrame => exact .shown
  | clearRedraw => exact .shown

/-- Only steps and resets reach the registers, the index, the counter, the
stack and the frame, the random source and the fault that is remembered. -/
theorem exists_perform_eq (machine : Machine) {operation : Operation}
    (unstepped : operation ≠ .step) (unreset : operation ≠ .reset) :
    ∃ memory timers redraw keypad,
      (machine.perform operation).machine =
        { machine with
          state :=
            { machine.state with
              memory := memory
              timers := timers
              redraw := redraw
              keypad := keypad } } := by
  cases operation with
  | load program =>
      obtain ⟨memory, same⟩ := machine.exists_load_eq program
      simp only [perform, Response.map, same]
      exact ⟨_, _, _, _, rfl⟩
  | loadFrom reader =>
      obtain ⟨memory, same⟩ := machine.exists_loadFrom_eq reader
      simp only [perform, Response.map, same]
      exact ⟨_, _, _, _, rfl⟩
  | step => exact absurd rfl unstepped
  | setKey key down =>
      simp only [perform, setKey, Response.map]
      split
      · exact ⟨_, _, _, _, rfl⟩
      · exact ⟨_, _, _, _, rfl⟩
  | reset => exact absurd rfl unreset
  | _ => exact ⟨_, _, _, _, rfl⟩

/-- A property of the first state that survives every change holds in every
reachable machine. -/
theorem Reachable.state_keeps {Kept : State → Prop}
    (initial : Kept State.initial)
    (keeps : ∀ before after, before.Change after → Kept before → Kept after)
    {machine : Machine} (reachable : machine.Reachable) :
    Kept machine.state := by
  obtain ⟨random, operations, rfl⟩ := reachable
  refine run_keeps (fun machine => Kept machine.state) ?_ initial _
  intro machine operation kept
  exact keeps _ _ (machine.change_of_perform operation) kept

end Machine

end ChipEight
