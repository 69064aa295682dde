import ChipEight.Proofs.Machine.Randomness
import ChipEight.Proofs.Machine.Reports

/-!
# Machines that cannot fetch

Past the last word of memory nothing can be fetched, and the recovery from that
fault is the only one that leaves the counter where it is.  So a machine that
got there is stuck until it is reset.  Its steps all have the same fault, of
which at most the first is a warning; timers, keys and the redraw flag still
change from outside, and memory still takes loads, but nothing that is loaded
helps.
-/

namespace ChipEight

namespace Machine

namespace Operation

def loads : Operation → Bool
  | load _ | loadFrom _ => true
  | _ => false

end Operation

/-- Whether the counter is past the last address that a word begins at. -/
def IsStuck (machine : Machine) : Prop :=
  0xFFF ≤ machine.state.counter.toNat

/-- The fault of every step of a stuck machine. -/
def fetchFault (machine : Machine) : Fault :=
  .outOfRange (max machine.state.counter 0x1000)

variable {machine : Machine} {operation : Operation}
variable {operations : List Operation}

/-! ### One operation -/

theorem IsStuck.step_eq (stuck : machine.IsStuck) :
    machine.step =
      machine.recover machine.state.counter machine.fetchFault [] :=
  (StepRule.unfetchable stuck).eq_step.symm

theorem IsStuck.exists_perform_eq (stuck : machine.IsStuck)
    (unreset : operation ≠ .reset) :
    ∃ memory timers redraw keypad,
      (machine.perform operation).machine.state =
        { machine.state with
          memory := memory
          timers := timers
          redraw := redraw
          keypad := keypad } := by
  by_cases stepped : operation = .step
  · subst stepped
    simp only [perform, Response.map, stuck.step_eq]
    exact ⟨_, _, _, _, rfl⟩
  · obtain ⟨memory, timers, redraw, keypad, same⟩ :=
      machine.exists_perform_eq stepped unreset
    rw [same]
    exact ⟨_, _, _, _, rfl⟩

theorem IsStuck.counter_perform (stuck : machine.IsStuck)
    (unreset : operation ≠ .reset) :
    (machine.perform operation).machine.state.counter =
      machine.state.counter := by
  obtain ⟨memory, timers, redraw, keypad, same⟩ :=
    stuck.exists_perform_eq unreset
  rw [same]

theorem IsStuck.perform (stuck : machine.IsStuck)
    (unreset : operation ≠ .reset) :
    (machine.perform operation).machine.IsStuck := by
  rw [IsStuck, stuck.counter_perform unreset]
  exact stuck

theorem IsStuck.executed?_perform (stuck : machine.IsStuck)
    (operation : Operation) :
    (machine.perform operation).answer.executed? = none := by
  by_cases stepped : operation = .step
  · subst stepped
    simp only [Machine.perform, Response.map, stuck.step_eq]
    rfl
  · exact machine.executed?_perform stepped

theorem IsStuck.memory_perform (stuck : machine.IsStuck)
    (unreset : operation ≠ .reset) (unloading : operation.loads = false) :
    (machine.perform operation).machine.state.memory =
      machine.state.memory := by
  cases operation with
  | load program => cases unloading
  | loadFrom reader => cases unloading
  | step =>
      simp only [Machine.perform, Response.map, stuck.step_eq]
      rfl
  | setKey key down =>
      simp only [Machine.perform, Response.map, setKey]
      split <;> rfl
  | reset => exact absurd rfl unreset
  | _ => rfl

/-- The number of warnings that a stuck machine may still make. -/
def warningsAhead (machine : Machine) : Nat :=
  if machine.lastFault = some machine.fetchFault then 0 else 1

/-- A stuck machine warns once at most: its fault depends on the counter alone,
so the next step repeats it. -/
theorem IsStuck.warningsAhead_perform (stuck : machine.IsStuck)
    (unreset : operation ≠ .reset) :
    (machine.perform operation).records.countP
          (fun record => record.severity = .warn) +
        (machine.perform operation).machine.warningsAhead =
      machine.warningsAhead := by
  by_cases stepped : operation = .step
  · subst stepped
    have still :
        (machine.perform .step).machine.fetchFault = machine.fetchFault := by
      rw [fetchFault, fetchFault, stuck.counter_perform unreset]
    rw [warningsAhead, warningsAhead, still]
    simp only [Machine.perform, Response.map, stuck.step_eq, recover,
      List.nil_append, List.countP_singleton, Record.severity, beq_iff_eq,
      if_true]
    split <;> simp
  · have quiet : (machine.perform operation).records.countP
        (fun record => record.severity = .warn) = 0 := by
      rw [List.countP_eq_zero]
      intro record made
      simp [severity_of_mem_perform stepped made]
    rw [quiet, Nat.zero_add, warningsAhead, warningsAhead, fetchFault,
      fetchFault, lastFault_perform stepped unreset,
      stuck.counter_perform unreset]

/-! ### Whole runs -/

theorem IsStuck.exists_run_eq (stuck : machine.IsStuck)
    (unreset : Operation.reset ∉ operations) :
    ∃ memory timers redraw keypad,
      (machine.run operations).state =
        { machine.state with
          memory := memory
          timers := timers
          redraw := redraw
          keypad := keypad } := by
  induction operations generalizing machine with
  | nil => exact ⟨_, _, _, _, rfl⟩
  | cons operation rest ih =>
      rw [List.mem_cons, not_or] at unreset
      obtain ⟨_, _, _, _, first⟩ := stuck.exists_perform_eq (Ne.symm unreset.1)
      obtain ⟨_, _, _, _, later⟩ :=
        ih (stuck.perform (Ne.symm unreset.1)) unreset.2
      rw [run_cons, later, first]
      exact ⟨_, _, _, _, rfl⟩

theorem IsStuck.counter_run (stuck : machine.IsStuck)
    (unreset : Operation.reset ∉ operations) :
    (machine.run operations).state.counter = machine.state.counter := by
  obtain ⟨memory, timers, redraw, keypad, same⟩ := stuck.exists_run_eq unreset
  rw [same]

theorem IsStuck.executions_eq_nil (stuck : machine.IsStuck)
    (unreset : Operation.reset ∉ operations) :
    machine.executions operations = [] := by
  induction operations generalizing machine with
  | nil => rfl
  | cons operation rest ih =>
      rw [List.mem_cons, not_or] at unreset
      rw [executions_cons, stuck.executed?_perform,
        ih (stuck.perform (Ne.symm unreset.1)) unreset.2]
      rfl

theorem IsStuck.random_run (stuck : machine.IsStuck)
    (unreset : Operation.reset ∉ operations) :
    (machine.run operations).random = machine.random := by
  rw [Machine.random_run, stuck.executions_eq_nil unreset]
  rfl

theorem IsStuck.warningsAhead_run (stuck : machine.IsStuck)
    (unreset : Operation.reset ∉ operations) :
    (machine.records operations).countP
          (fun record => record.severity = .warn) +
        (machine.run operations).warningsAhead =
      machine.warningsAhead := by
  induction operations generalizing machine with
  | nil => exact Nat.zero_add _
  | cons operation rest ih =>
      rw [List.mem_cons, not_or] at unreset
      have first := stuck.warningsAhead_perform (Ne.symm unreset.1)
      have later := ih (stuck.perform (Ne.symm unreset.1)) unreset.2
      rw [records_cons, List.countP_append, run_cons]
      omega

/-- A machine that cannot fetch from its counter stays there until it is reset,
whatever is done to it.  Every step has the fault of a fetch from that counter,
and changes nothing in the state and draws no random byte; only loads change
memory; the counter, the registers, the index, the stack and the frame stay as
they are; and at most one of all the records is a warning. -/
theorem stuck_until_reset (stuck : 0xFFF ≤ machine.state.counter.toNat)
    (unreset : Operation.reset ∉ operations) :
    let after := (machine.run operations).state
    (∀ before operation rest, operations = before ++ operation :: rest →
      let current := machine.run before
      (operation = .step →
        current.step.answer =
            .faulted (.outOfRange (max machine.state.counter 0x1000)) ∧
          current.step.machine.state = current.state ∧
          current.step.machine.random = current.random) ∧
      ((current.perform operation).machine.state.memory ≠
          current.state.memory →
        operation.loads = true)) ∧
      after.counter = machine.state.counter ∧
      after.registers = machine.state.registers ∧
      after.index = machine.state.index ∧
      after.stack = machine.state.stack ∧
      after.frame = machine.state.frame ∧
      (machine.run operations).random = machine.random ∧
      (machine.records operations).countP
        (fun record => record.severity = .warn) ≤ 1 := by
  intro after
  refine ⟨?each, ?_⟩
  case each =>
    rintro before operation rest rfl current
    rw [List.mem_append, List.mem_cons, not_or, not_or] at unreset
    obtain ⟨earlier, here, _⟩ := unreset
    have counter : current.state.counter = machine.state.counter :=
      IsStuck.counter_run stuck earlier
    have still : current.IsStuck := by
      rw [IsStuck, counter]
      exact stuck
    constructor
    · rintro rfl
      rw [still.step_eq, fetchFault, counter]
      exact ⟨rfl, by rw [← counter]; rfl, rfl⟩
    · intro changed
      rw [← Bool.not_eq_false]
      intro unloading
      exact changed (still.memory_perform (Ne.symm here) unloading)
  obtain ⟨memory, timers, redraw, keypad, same⟩ :=
    IsStuck.exists_run_eq stuck unreset
  have warnings := IsStuck.warningsAhead_run stuck unreset
  have most : machine.warningsAhead ≤ 1 := by
    rw [warningsAhead]
    split <;> decide
  rw [show after = _ from same]
  exact ⟨rfl, rfl, rfl, rfl, rfl, IsStuck.random_run stuck unreset, by omega⟩

/-- A jump to the last byte of memory; a program loaded there does not help. -/
theorem stuck_until_reset_at_last_byte :
    let machine := (new (RandomSource.ofWords fun _ => 0)).run
      [.load [0x1F, 0xFF], .step]
    let operations : List Operation :=
      [.step, .tick, .load [0x12, 0x00], .step, .setKey 1 true]
    0xFFF ≤ machine.state.counter.toNat ∧ Operation.reset ∉ operations ∧
      (machine.run operations).state.counter = 0xFFF ∧
      (machine.records operations).countP
        (fun record => record.severity = .warn) ≤ 1 := by
  intro machine operations
  have there : machine.state.counter = 0xFFF := by decide +kernel
  have stuck : 0xFFF ≤ machine.state.counter.toNat := by
    rw [there]
    decide
  have unreset : Operation.reset ∉ operations := by decide
  obtain ⟨_, counter, _, _, _, _, _, warnings⟩ :=
    stuck_until_reset stuck unreset
  exact ⟨stuck, unreset, counter.trans there, warnings⟩

end Machine

end ChipEight
