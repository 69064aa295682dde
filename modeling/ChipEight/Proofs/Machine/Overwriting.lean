import ChipEight.Proofs.Instruction.Changes
import ChipEight.Proofs.Machine.Loading
import ChipEight.Proofs.Machine.Reachability

/-!
# Who changes memory

Three kinds of operations write to memory: a reset, a load, and a step that
executes a store.  `Overwrites` says which bytes each of them may write, and
every change of a byte over a run goes back to one of them.
-/

namespace ChipEight

namespace Machine

/-- Whether an operation may write the byte at an address. -/
inductive Overwrites (machine : Machine) (address : Nat) : Operation → Prop
  | reset : Overwrites machine address .reset
  | load {program : List UInt8}
      (fits : program.length ≤ programCapacity)
      (above : programStart.toNat ≤ address)
      (below : address < programStart.toNat + program.length) :
      Overwrites machine address (.load program)
  | loadFrom {reader : List ReadOutcome} {program : List UInt8}
      (read : ReadOutcome.readToEnd reader = .ok program)
      (fits : program.length ≤ programCapacity)
      (above : programStart.toNat ≤ address)
      (below : address < programStart.toNat + program.length) :
      Overwrites machine address (.loadFrom reader)
  | step {instruction : Instruction} {span : Span}
      (executed : machine.step.answer = .executed instruction)
      (writes : instruction.writesMemory = true)
      (used : instruction.spanUsed? machine.state = some span)
      (checked : span.writeFault? = none)
      (above : span.start.toNat ≤ address)
      (below : address < span.stop) :
      Overwrites machine address .step

theorem covered_of_byte_load_ne {machine : Machine} {program : List UInt8}
    {address : Nat}
    (changed : (machine.load program).machine.state.memory.byte address ≠
      machine.state.memory.byte address) :
    program.length ≤ programCapacity ∧ programStart.toNat ≤ address ∧
      address < programStart.toNat + program.length := by
  constructor
  · by_contra large
    rw [load_of_too_large (by omega)] at changed
    exact changed rfl
  · by_contra outside
    exact changed (byte_load_of_outside (by omega))

theorem outcomeOf_of_writesMemory {instruction : Instruction}
    (writes : instruction.writesMemory = true) (before after : State) :
    outcomeOf instruction before after = .executed instruction := by
  cases instruction with
  | storeDecimal x => rfl
  | storeRegisters x => rfl
  | _ => cases writes

theorem overwrites_of_byte_step_ne {machine : Machine} {address : Nat}
    (changed : machine.step.machine.state.memory.byte address ≠
      machine.state.memory.byte address) :
    machine.Overwrites address .step := by
  have rule := machine.stepRule
  generalize same : machine.step = response at rule changed
  cases rule with
  | unfetchable past => exact absurd rfl changed
  | unknown within fetched undecoded => exact absurd rfl changed
  | refused within fetched decoded refusal => exact absurd rfl changed
  | @ran word instruction counter within fetched decoded accepted continues
      next produced =>
      have executed :
          instruction.execute (instruction.byteFrom machine.random)
            machine.state = .ok next := by
        rw [Instruction.execute_of_encodable
          (Instruction.encodable_of_decode decoded), accepted, continues,
          produced]
      obtain ⟨writes, span, used, above, below⟩ :=
        (Instruction.footprint_of_execute executed).memory address changed
      have outcome : machine.step.answer = .executed instruction := by
        rw [same]
        exact outcomeOf_of_writesMemory writes machine.state next
      have checked : span.writeFault? = none :=
        Instruction.writeFault?_of_accepted accepted writes used
      exact .step outcome writes used checked above below
  | crashed within fetched decoded accepted stops => exact absurd rfl changed

theorem overwrites_of_byte_perform_ne {machine : Machine}
    {operation : Operation} {address : Nat}
    (changed : (machine.perform operation).machine.state.memory.byte address ≠
      machine.state.memory.byte address) :
    machine.Overwrites address operation := by
  cases operation with
  | load program =>
      obtain ⟨fits, above, below⟩ := covered_of_byte_load_ne changed
      exact .load fits above below
  | loadFrom reader =>
      cases read : ReadOutcome.readToEnd reader with
      | ok program =>
          simp only [perform, loadFrom, read, Response.map] at changed
          obtain ⟨fits, above, below⟩ := covered_of_byte_load_ne changed
          exact .loadFrom read fits above below
      | error reason =>
          simp only [perform, loadFrom, read, Response.map] at changed
          exact absurd rfl changed
  | step => exact overwrites_of_byte_step_ne changed
  | setKey key down =>
      simp only [perform, setKey, Response.map] at changed
      split at changed <;> exact absurd rfl changed
  | reset => exact .reset
  | _ => exact absurd rfl changed

/-- A byte that differs after a run was overwritten in it. -/
theorem exists_overwrites_of_byte_run_ne {operations : List Operation}
    {machine : Machine} {address : Nat}
    (changed : (machine.run operations).state.memory.byte address ≠
      machine.state.memory.byte address) :
    ∃ before operation rest, operations = before ++ operation :: rest ∧
      (machine.run before).Overwrites address operation := by
  induction operations generalizing machine with
  | nil => exact absurd rfl changed
  | cons operation rest ih =>
      by_cases kept :
          (machine.perform operation).machine.state.memory.byte address =
            machine.state.memory.byte address
      · rw [run_cons, ← kept] at changed
        obtain ⟨before, later, after, rfl, overwrites⟩ := ih changed
        exact ⟨operation :: before, later, after, rfl, overwrites⟩
      · exact ⟨[], operation, rest, rfl, overwrites_of_byte_perform_ne kept⟩

/-- Instructions that succeed keep to their footprints, and over a run a byte
of memory changes only by a reset, by a load that covers it, or by a store that
was executed and whose checked span holds it. -/
theorem changes_keep_to_footprints :
    (∀ (instruction : Instruction) (random : UInt8) (before after : State),
      instruction.execute random before = .ok after →
        instruction.Footprint before after) ∧
      (∀ (machine : Machine) (operation : Operation) (address : Nat),
        (machine.perform operation).machine.state.memory.byte address ≠
            machine.state.memory.byte address →
          machine.Overwrites address operation) ∧
      ∀ (machine : Machine) (operations : List Operation) (address : Nat),
        (machine.run operations).state.memory.byte address ≠
            machine.state.memory.byte address →
          ∃ before operation rest, operations = before ++ operation :: rest ∧
            (machine.run before).Overwrites address operation := by
  refine ⟨?_, ?_, ?_⟩
  · intro instruction random before after executed
    exact Instruction.footprint_of_execute executed
  · intro machine operation address changed
    exact overwrites_of_byte_perform_ne changed
  · intro machine operations address changed
    exact exists_overwrites_of_byte_run_ne changed

end Machine

end ChipEight
