import ChipEight.Proofs.Machine.Safety
import ChipEight.Proofs.Machine.Since
import ChipEight.Proofs.Machine.Transcript

/-!
# What a step reports

A step reports the instruction it decoded, with the registers before it, and
then the fault it recovered from, with the registers after the recovery.  A
fault is a warning unless the latest step had it too; a reset and a step without
a fault make the machine forget it.

Some faults tell of the counter they were found at.  The recovery from such a
fault moves the counter, and then only another step can move it back, so these
faults are warnings always.
-/

namespace ChipEight

namespace State

/-- The word at the counter and the instruction it stands for, if it is one. -/
def decoding? (state : State) : Option (Word × Instruction) :=
  match state.fetch with
  | .ok word =>
    (Instruction.decode word).map fun instruction => (word, instruction)
  | .error _ => none

theorem decoding?_of_decode {state : State} {word : Word}
    {instruction : Instruction} (fetched : state.fetch = .ok word)
    (decoded : Instruction.decode word = some instruction) :
    state.decoding? = some (word, instruction) := by
  simp only [decoding?, fetched, decoded, Option.map_some]

end State

namespace Fault

/-- The counter that a fault was found at, if the fault tells of it. -/
def counter? : Fault → Option Word
  | unknownOpcode _ counter => some counter
  | stackOverflow counter => some counter
  | stackUnderflow counter => some counter
  | outOfRange _ => none
  | protectedWrite _ => none

end Fault

namespace Span

theorem counter?_of_readFault? {span : Span} {fault : Fault}
    (refused : span.readFault? = some fault) : fault.counter? = none := by
  obtain ⟨_, rfl⟩ := (span.readFault?_eq_some_iff fault).mp refused
  rfl

theorem counter?_of_writeFault? {span : Span} {fault : Fault}
    (refused : span.writeFault? = some fault) : fault.counter? = none := by
  rw [writeFault?] at refused
  split at refused
  · next unreadable =>
    cases refused
    exact counter?_of_readFault? unreadable
  · split at refused
    · cases refused
      rfl
    · cases refused

end Span

namespace Instruction

/-- What an instruction is refused for tells of no other counter than its
own. -/
theorem counter_of_fault? {instruction : Instruction} {state : State}
    {fault : Fault} (refused : instruction.fault? state = some fault)
    {counter : Word} (told : fault.counter? = some counter) :
    counter = state.counter := by
  cases instruction with
  | leave =>
      rw [fault?] at refused
      split at refused
      · cases refused
        cases told
        rfl
      · cases refused
  | call target =>
      rw [fault?] at refused
      split at refused
      · cases refused
        cases told
        rfl
      · cases refused
  | draw x y height =>
      cases (Span.counter?_of_readFault? refused).symm.trans told
  | loadRegisters x =>
      cases (Span.counter?_of_readFault? refused).symm.trans told
  | storeDecimal x =>
      cases (Span.counter?_of_writeFault? refused).symm.trans told
  | storeRegisters x =>
      cases (Span.counter?_of_writeFault? refused).symm.trans told
  | _ => cases refused

end Instruction

namespace Machine

/-- The fault that a step recovered from, if it did. -/
def Outcome.fault? : Outcome → Option Fault
  | faulted fault => some fault
  | _ => none

theorem Outcome.fault?_eq_some_iff {outcome : Outcome} {fault : Fault} :
    outcome.fault? = some fault ↔ outcome = .faulted fault := by
  cases outcome <;> simp [fault?]

variable {machine : Machine} {operation : Operation}

/-! ### The records of one step -/

/-- A step records what it decoded, and then what it recovered from. -/
theorem records_step (machine : Machine) :
    machine.step.records =
      (machine.state.decoding?.map fun entry =>
        Record.decoded entry.1 entry.2 machine.state.dump).toList ++
      (machine.step.answer.fault?.map fun fault =>
        Record.recovered fault (machine.lastFault == some fault)
          machine.step.machine.state.dump).toList := by
  have rule := machine.stepRule
  generalize machine.step = response at rule ⊢
  cases rule with
  | unfetchable past =>
      have unfetched := (machine.state.fetch_eq_error_iff _).mpr ⟨past, rfl⟩
      have undecoded : machine.state.decoding? = none := by
        simp only [State.decoding?, unfetched]
      rw [undecoded]
      rfl
  | unknown within fetched unknown =>
      have undecoded : machine.state.decoding? = none := by
        simp only [State.decoding?, fetched, unknown, Option.map_none]
      rw [undecoded]
      rfl
  | refused within fetched decoded refusal =>
      rw [State.decoding?_of_decode fetched decoded]
      rfl
  | @ran word instruction counter within fetched decoded accepted continues
      next produced =>
      rw [State.decoding?_of_decode fetched decoded]
      obtain waits | runs := outcomeOf_eq instruction machine.state next
      · rw [waits]
        rfl
      · rw [runs]
        rfl
  | crashed within fetched decoded accepted stops =>
      rw [State.decoding?_of_decode fetched decoded]
      rfl

/-- Other operations than steps record details alone. -/
theorem severity_of_mem_perform (unstepped : operation ≠ .step)
    {record : Record} (made : record ∈ (machine.perform operation).records) :
    record.severity = .debug := by
  cases operation with
  | step => exact absurd rfl unstepped
  | load program =>
      simp only [perform, Response.map, load] at made
      split at made
      · cases made
      · cases List.mem_singleton.mp made
        rfl
  | loadFrom reader =>
      simp only [perform, Response.map, loadFrom, load] at made
      split at made
      · split at made
        · cases made
        · cases List.mem_singleton.mp made
          rfl
      · cases made
  | setKey key down =>
      simp only [perform, Response.map, setKey] at made
      split at made
      · cases made
      · cases List.mem_singleton.mp made
        rfl
  | reset =>
      cases List.mem_singleton.mp made
      rfl
  | _ => cases made

/-! ### The fault that is remembered -/

/-- A step that does not crash makes its fault the one that is remembered. -/
theorem lastFault_step (sound : machine.state.WellFormed) :
    machine.step.machine.lastFault = machine.step.answer.fault? := by
  have safe := step_ne_crashed sound
  have rule := machine.stepRule
  generalize machine.step = response at rule safe ⊢
  cases rule with
  | unfetchable past => rfl
  | unknown within fetched undecoded => rfl
  | refused within fetched decoded refusal => rfl
  | @ran word instruction counter within fetched decoded accepted continues
      next produced =>
      obtain waits | runs := outcomeOf_eq instruction machine.state next
      · rw [waits]
        rfl
      · rw [runs]
        rfl
  | crashed within fetched decoded accepted stops => exact absurd rfl (safe _)

/-- Apart from steps only resets concern the fault that is remembered. -/
theorem lastFault_perform (unstepped : operation ≠ .step)
    (unreset : operation ≠ .reset) :
    (machine.perform operation).machine.lastFault = machine.lastFault := by
  obtain ⟨memory, timers, redraw, keypad, same⟩ :=
    machine.exists_perform_eq unstepped unreset
  rw [same]

theorem lastFault_perform_iff (sound : machine.state.WellFormed)
    (operation : Operation) (fault : Fault) :
    (machine.perform operation).machine.lastFault = some fault ↔
      (operation = .step ∧ machine.step.answer = .faulted fault) ∨
        ((operation ≠ .step ∧ operation ≠ .reset) ∧
          machine.lastFault = some fault) := by
  by_cases stepped : operation = .step
  · subst stepped
    have remembered : (machine.perform .step).machine.lastFault =
        machine.step.answer.fault? :=
      lastFault_step sound
    rw [remembered, Outcome.fault?_eq_some_iff]
    simp
  · by_cases reset : operation = .reset
    · subst reset
      simp [perform, Response.map, Machine.reset]
    · rw [lastFault_perform stepped reset]
      simp [stepped, reset]

/-- A machine remembers the fault of its latest step since it was new or last
reset. -/
theorem lastFault_run_iff (random : RandomSource) (operations : List Operation)
    (fault : Fault) :
    ((new random).run operations).lastFault = some fault ↔
      (new random).Since
        (fun _ later => later ≠ .step ∧ later ≠ .reset)
        (fun earlier operation =>
          operation = .step ∧ earlier.step.answer = .faulted fault)
        operations :=
  iff_since_of_kept (fun machine => machine.state.WellFormed)
    (fun machine => machine.lastFault = some fault)
    (fun _ operation sound => wellFormed_perform sound operation)
    (fun _ operation sound => lastFault_perform_iff sound operation fault)
    State.wellFormed_initial (by simp [new]) operations

/-! ### Faults that tell of a counter -/

/-- The fault that is remembered tells of no counter, or of another one than
that of the machine. -/
def MovedOn (machine : Machine) : Prop :=
  ∀ fault, machine.lastFault = some fault →
    fault.counter? ≠ some machine.state.counter

theorem counter_add_two_ne (counter : Word) : counter + 2 ≠ counter := by
  intro same
  have value := congrArg UInt16.toNat same
  have small := counter.toNat_lt
  simp only [UInt16.toNat_add, UInt16.reduceToNat] at value
  omega

/-- A fault that tells of a counter was found at the counter of the machine,
which the recovery moves: only the fault of a fetch leaves it, and tells of
none. -/
theorem counter_of_faulted {fault : Fault}
    (faulted : machine.step.answer = .faulted fault) {counter : Word}
    (told : fault.counter? = some counter) :
    counter = machine.state.counter ∧
      machine.step.machine.state.counter = counter + 2 := by
  obtain ⟨next, records, recovery, stage⟩ := recovery_of_faulted faulted
  rw [recovery]
  obtain ⟨_, rfl, _⟩ | ⟨word, _, _, rfl, cause⟩ := stage
  · cases told
  · have own : counter = machine.state.counter := by
      obtain ⟨_, rfl⟩ | ⟨instruction, _, refused⟩ := cause
      · exact (Option.some.inj told).symm
      · exact Instruction.counter_of_fault? refused told
    exact ⟨own, by rw [own]; rfl⟩

theorem movedOn_step (sound : machine.state.WellFormed) :
    machine.step.machine.MovedOn := by
  intro fault remembered told
  rw [lastFault_step sound, Outcome.fault?_eq_some_iff] at remembered
  obtain ⟨_, moved⟩ := counter_of_faulted remembered told
  exact counter_add_two_ne _ moved.symm

theorem MovedOn.perform (moved : machine.MovedOn)
    (sound : machine.state.WellFormed) (operation : Operation) :
    (machine.perform operation).machine.MovedOn := by
  by_cases stepped : operation = .step
  · subst stepped
    exact movedOn_step sound
  · by_cases reset : operation = .reset
    · subst reset
      intro fault remembered
      cases remembered
    · obtain ⟨memory, timers, redraw, keypad, same⟩ :=
        machine.exists_perform_eq stepped reset
      rw [MovedOn, lastFault_perform stepped reset, same]
      exact moved

theorem Reachable.movedOn (reachable : machine.Reachable) :
    machine.MovedOn := by
  obtain ⟨random, operations, rfl⟩ := reachable
  suffices ((new random).run operations).state.WellFormed ∧
      ((new random).run operations).MovedOn from this.2
  refine run_keeps (fun machine => machine.state.WellFormed ∧ machine.MovedOn)
    ?_ ?_ operations
  · rintro machine operation ⟨sound, moved⟩
    exact ⟨wellFormed_perform sound operation, moved.perform sound operation⟩
  · refine ⟨State.wellFormed_initial, ?_⟩
    intro fault remembered
    cases remembered

/-- A fault that tells of a counter is not the one that is remembered. -/
theorem lastFault_ne_of_faulted (reachable : machine.Reachable) {fault : Fault}
    (faulted : machine.step.answer = .faulted fault) {counter : Word}
    (told : fault.counter? = some counter) :
    machine.lastFault ≠ some fault := by
  intro remembered
  have own := (counter_of_faulted faulted told).1
  apply reachable.movedOn fault remembered
  rw [told, own]

/-- In the order in which it reports them to a listener who hears everything, a
step reports the word and the instruction it decoded, if it did, with the
registers before it, and the fault it recovered from, if it did, with the
registers after it.  The fault is a detail if the latest step since the machine
was new or last reset had the same fault, and a warning otherwise.  A fault that
tells of the counter it was found at is always a warning. -/
theorem step_reports (random : RandomSource) (before : List Operation) :
    let machine := (new random).run before
    ∃ repeated : Bool,
      machine.step.reports .trace =
        (machine.state.decoding?.map fun entry =>
          (Severity.trace,
            Record.decodedCharacters entry.1 entry.2
              machine.state.dump)).toList ++
        (machine.step.answer.fault?.map fun fault =>
          (if repeated then Severity.debug else Severity.warn,
            Record.recoveredCharacters fault
              machine.step.machine.state.dump)).toList ∧
      ∀ fault, machine.step.answer = .faulted fault →
        (repeated = true ↔
          (new random).Since
            (fun _ later => later ≠ .step ∧ later ≠ .reset)
            (fun earlier operation =>
              operation = .step ∧ earlier.step.answer = .faulted fault)
            before) ∧
        (fault.counter?.isSome = true → repeated = false) := by
  intro machine
  refine ⟨machine.lastFault == machine.step.answer.fault?, ?reports, ?level⟩
  case reports =>
    rw [reports_trace, records_step]
    cases machine.state.decoding? <;> cases machine.step.answer.fault? <;> rfl
  case level =>
    intro fault faulted
    have found : machine.step.answer.fault? = some fault := by
      rw [faulted]
      rfl
    rw [found]
    constructor
    · rw [beq_iff_eq]
      exact lastFault_run_iff random before fault
    · intro tells
      obtain ⟨counter, told⟩ := Option.isSome_iff_exists.mp tells
      have other : machine.lastFault ≠ some fault :=
        lastFault_ne_of_faulted ⟨random, before, rfl⟩ faulted told
      simpa using other

/-- Two draws in a row from past the end of memory, with a tick in between: the
second has the fault of the first, and reports it as a detail. -/
theorem step_reports_of_second_draw :
    let random := RandomSource.ofWords fun _ => 0
    let before : List Operation :=
      [.load [0xAF, 0xFF, 0xD0, 0x05, 0xD0, 0x05], .step, .step, .tick]
    let machine := (new random).run before
    machine.step.answer = .faulted (.outOfRange 0x1000) ∧
      (machine.step.reports .trace).map Prod.fst = [.trace, .debug] := by
  intro random before machine
  have facts : machine.step.answer = .faulted (.outOfRange 0x1000) ∧
      machine.state.decoding? = some (0xD005, .draw 0 0 5) ∧
      machine.lastFault = some (.outOfRange 0x1000) := by
    decide +kernel
  obtain ⟨faulted, decoded, remembered⟩ := facts
  obtain ⟨repeated, reports, level⟩ := step_reports random before
  have since : repeated = true :=
    (level _ faulted).1.mpr ((lastFault_run_iff random before _).mp remembered)
  rw [reports, decoded, faulted, since]
  exact ⟨rfl, rfl⟩

end Machine

end ChipEight
