import ChipEight.Proofs.Instruction.Changes
import ChipEight.Proofs.Instruction.Continuation
import ChipEight.Proofs.Keypad.Keys
import ChipEight.Proofs.Machine.Since
import ChipEight.Proofs.Machine.Stepping
import ChipEight.Proofs.Machine.Transcript

/-!
# The history of a key

A key is pressed and released from outside.  An instruction that waits for a
key also releases the one it delivers, and a reset releases all of them.  The
last of these events decides whether a key is down, and since a key that was
delivered is up, a press is never delivered twice.
-/

namespace ChipEight

namespace Machine

/-- Whether a step gets a key for an instruction that waits for one. -/
def Delivers (machine : Machine) (key : UInt8) : Prop :=
  ∃ x, machine.step.answer = .executed (.awaitKey x) ∧
    machine.step.machine.state.register x = key

/-- Whether an operation presses or releases a key from outside. -/
def Operation.sets (key : UInt8) : Operation → Bool
  | setKey other _ => other == key
  | _ => false

/-- Whether an operation presses, releases or delivers a key. -/
def Concerns (machine : Machine) (key : UInt8) (operation : Operation) :
    Prop :=
  (∃ down, operation = .setKey key down) ∨ operation = .reset ∨
    (operation = .step ∧ machine.Delivers key)

variable {machine : Machine} {key : UInt8}

/-! ### Delivered keys -/

/-- A wait is over exactly when the counter has moved. -/
theorem counter_ne_of_awaited {x : UInt8}
    (awaited : machine.step.answer = .executed (.awaitKey x)) :
    machine.step.machine.state.counter ≠ machine.state.counter := by
  have rule := machine.stepRule
  generalize machine.step = response at rule awaited ⊢
  cases rule with
  | unfetchable past => cases awaited
  | unknown within fetched undecoded => cases awaited
  | refused within fetched decoded refusal => cases awaited
  | ran within fetched decoded accepted continues produced =>
      simp only [succeed, outcomeOf] at awaited ⊢
      split at awaited
      case isTrue still => cases awaited
      case isFalse moved =>
        cases awaited
        simpa [Instruction.awaitsKey] using moved
  | crashed within fetched decoded accepted stops => cases awaited

/-- What is delivered is the lowest key that is down, which is then released. -/
theorem delivery_of_awaited {x : UInt8}
    (awaited : machine.step.answer = .executed (.awaitKey x)) :
    ∃ key, machine.state.keypad.lowest? = some key ∧
      machine.step.machine.state.register x = key ∧
      machine.step.machine.state.keypad =
        machine.state.keypad.set key false := by
  obtain ⟨word, counter, _, _, _, _, continues, after⟩ :=
    execution_of_executed awaited
  have named := named_lt_of_executed awaited x (.head _)
  have moved := counter_ne_of_awaited awaited
  rw [Instruction.continuation_awaitKey] at continues
  rw [after] at moved ⊢
  cases lowest : machine.state.keypad.lowest? with
  | none =>
      rw [lowest] at continues
      cases continues
      exact absurd rfl moved
  | some key =>
      refine ⟨key, rfl, ?_, ?_⟩
      · simp only [Instruction.effect, Instruction.keyTaken, lowest]
        exact machine.state.register_setRegister_self named key
      · simp only [Instruction.effect, Instruction.keyTaken, lowest]

theorem lowest?_of_delivers (delivers : machine.Delivers key) :
    machine.state.keypad.lowest? = some key ∧
      machine.step.machine.state.keypad =
        machine.state.keypad.set key false := by
  obtain ⟨x, awaited, stored⟩ := delivers
  obtain ⟨found, lowest, same, released⟩ := delivery_of_awaited awaited
  cases same.symm.trans stored
  exact ⟨lowest, released⟩

/-- A step that delivers no key leaves the keypad alone, for a wait that goes on
has found no key down. -/
theorem keypad_step (idle : ∀ x,
      machine.step.answer ≠ .executed (.awaitKey x)) :
    machine.step.machine.state.keypad = machine.state.keypad := by
  have rule := machine.stepRule
  generalize machine.step = response at rule idle ⊢
  cases rule with
  | unfetchable past => rfl
  | unknown within fetched undecoded => rfl
  | refused within fetched decoded refusal => rfl
  | @ran word instruction counter within fetched decoded accepted continues
      next produced =>
      rw [produced] at idle ⊢
      by_cases waits : ∃ x, instruction = .awaitKey x
      · obtain ⟨x, rfl⟩ := waits
        rw [Instruction.continuation_awaitKey] at continues
        cases lowest : machine.state.keypad.lowest? with
        | none =>
            simp only [succeed, Instruction.effect, Instruction.keyTaken,
              lowest]
        | some key =>
            rw [lowest] at continues
            have moved := Word.toNat_of_advance continues
            have apart : counter ≠ machine.state.counter := by
              rintro rfl
              omega
            refine absurd ?_ (idle x)
            simp [succeed, outcomeOf, apart]
      · have unwaiting : ∀ x, instruction ≠ .awaitKey x :=
          fun x same => waits ⟨x, same⟩
        exact Instruction.keypad_effect _ _ _ unwaiting
  | crashed within fetched decoded accepted stops => rfl

theorem isDown_step_iff (machine : Machine) (key : UInt8) :
    machine.step.machine.state.keypad.isDown key = true ↔
      ¬ machine.Delivers key ∧ machine.state.keypad.isDown key = true := by
  by_cases awaited : ∃ x, machine.step.answer = .executed (.awaitKey x)
  · obtain ⟨x, awaited⟩ := awaited
    obtain ⟨found, lowest, stored, released⟩ := delivery_of_awaited awaited
    have named := (Keypad.lowest_of_lowest? lowest).1
    rw [released, Keypad.isDown_set]
    by_cases same : found = key
    · subst same
      have delivers : machine.Delivers found := ⟨x, awaited, stored⟩
      simp [delivers, named]
    · have spares : ¬ machine.Delivers key := by
        intro delivers
        have other := (lowest?_of_delivers delivers).1
        exact same (Option.some.inj (lowest.symm.trans other))
      simp [spares, same]
  · rw [not_exists] at awaited
    have spares : ¬ machine.Delivers key :=
      fun ⟨x, stored, _⟩ => awaited x stored
    rw [keypad_step awaited]
    simp [spares]

/-! ### Every operation -/

theorem isDown_setKey (named : key.toNat < keyCount) (machine : Machine)
    (other : UInt8) (down : Bool) :
    (machine.setKey other down).machine.state.keypad.isDown key =
      if other = key then down else machine.state.keypad.isDown key := by
  rw [setKey]
  split
  case isTrue => simp [named]
  case isFalse unnamed =>
    have apart : other ≠ key := by
      rintro rfl
      simp [Keypad.names, named] at unnamed
    rw [if_neg apart]

/-- After an operation a key is down if the operation pressed it, or if it was
down and the operation does not concern it. -/
theorem isDown_perform_iff (named : key.toNat < keyCount) (machine : Machine)
    (operation : Operation) :
    (machine.perform operation).machine.state.keypad.isDown key = true ↔
      operation = .setKey key true ∨
        (¬ machine.Concerns key operation ∧
          machine.state.keypad.isDown key = true) := by
  cases operation with
  | step =>
      have stepped := machine.isDown_step_iff key
      simpa [perform, Response.map, Concerns] using stepped
  | setKey other down =>
      have set := machine.isDown_setKey named other down
      simp only [perform, Response.map, Concerns, set]
      by_cases same : other = key
      · simp [same]
      · simp [same]
  | reset => simp [perform, Response.map, reset, State.initial, Concerns]
  | load program =>
      obtain ⟨memory, same⟩ := machine.exists_load_eq program
      simp [perform, Response.map, Concerns, same]
  | loadFrom reader =>
      obtain ⟨memory, same⟩ := machine.exists_loadFrom_eq reader
      simp [perform, Response.map, Concerns, same]
  | tick => simp [perform, Response.map, tick, Concerns]
  | frame => simp [perform, Concerns]
  | takeFrame => simp [perform, Response.map, takeFrame, clearRedraw, Concerns]
  | clearRedraw => simp [perform, clearRedraw, Concerns]

/-- A key that is up stays up until it is pressed. -/
theorem isDown_run_of_unpressed {operations : List Operation}
    (named : key.toNat < keyCount)
    (unpressed : Operation.setKey key true ∉ operations)
    (up : machine.state.keypad.isDown key = false) :
    (machine.run operations).state.keypad.isDown key = false := by
  induction operations generalizing machine with
  | nil => exact up
  | cons operation rest ih =>
      rw [List.mem_cons, not_or] at unpressed
      apply ih unpressed.2
      rw [← Bool.not_eq_true, isDown_perform_iff named, not_or]
      exact ⟨Ne.symm unpressed.1, fun down => by simp [up] at down⟩

theorem setKey_of_sets {operation : Operation} (sets : operation.sets key) :
    ∃ down, operation = .setKey key down := by
  cases operation with
  | setKey other down =>
      cases beq_iff_eq.mp sets
      exact ⟨down, rfl⟩
  | _ => cases sets

/-- As long as nothing is reset and no key delivered, a key is down if it was
pressed when it was last set. -/
theorem isDown_run_iff_last {operations : List Operation}
    (named : key.toNat < keyCount)
    (up : machine.state.keypad.isDown key = false)
    (undelivered : ∀ x,
      Instruction.awaitKey x ∉ machine.executions operations)
    (kept : Operation.reset ∉ operations) :
    (machine.run operations).state.keypad.isDown key = true ↔
      (operations.filter (Operation.sets key)).getLast? =
        some (.setKey key true) := by
  induction operations using List.reverseRecOn with
  | nil => simp [up]
  | append_singleton operations last ih =>
      simp only [executions_append, List.mem_append, not_or] at undelivered
      simp only [List.mem_append, List.mem_singleton, not_or] at kept
      rw [run_append, run_cons, run_nil, isDown_perform_iff named,
        List.filter_append]
      by_cases sets : last.sets key
      · obtain ⟨down, rfl⟩ := setKey_of_sets sets
        have concerned :
            (machine.run operations).Concerns key (.setKey key down) :=
          .inl ⟨down, rfl⟩
        simp [sets, concerned]
      · have other : ∀ down, last ≠ .setKey key down := by
          rintro down rfl
          simp [Operation.sets] at sets
        have spares : ¬ (machine.run operations).Concerns key last := by
          rintro (⟨down, same⟩ | same | ⟨rfl, x, awaited, _⟩)
          · exact other down same
          · exact kept.2 same.symm
          · apply (undelivered x).2
            simp [executions, responses, perform, Response.map, awaited,
              Answer.executed?]
        have before := ih (fun x => (undelivered x).1) kept.1
        simp [sets, spares, other, before]

/-- Between two deliveries of a key it was pressed. -/
theorem pressed_between {operations : List Operation}
    (first : machine.Delivers key)
    (second : (machine.step.machine.run operations).Delivers key) :
    Operation.setKey key true ∈ operations := by
  obtain ⟨lowest, released⟩ := lowest?_of_delivers first
  have named := (Keypad.lowest_of_lowest? lowest).1
  have up : machine.step.machine.state.keypad.isDown key = false := by
    rw [released, Keypad.isDown_set, if_pos ⟨rfl, named⟩]
  have down := (Keypad.lowest_of_lowest? (lowest?_of_delivers second).1).2.1
  by_contra unpressed
  have still := isDown_run_of_unpressed named unpressed up
  cases down.symm.trans still

/-- A key is down exactly if the last event that concerned it was its press: a
press, a release, a delivery or a reset.  A byte that names no key is ignored.
A wait that is over has stored the lowest key that was down, and between two
deliveries of a key it was pressed. -/
theorem keys_follow_history :
    (∀ (random : RandomSource) (operations : List Operation) (key : UInt8),
      key.toNat < keyCount →
        (((new random).run operations).state.keypad.isDown key = true ↔
          (new random).Since
            (fun machine operation => ¬ machine.Concerns key operation)
            (fun _ operation => operation = .setKey key true) operations)) ∧
    (∀ (machine : Machine) (key : UInt8) (down : Bool),
      keyCount ≤ key.toNat →
        (machine.setKey key down).machine = machine) ∧
    (∀ (machine : Machine) (x : UInt8),
      machine.step.answer = .executed (.awaitKey x) →
        let key := machine.step.machine.state.register x
        key.toNat < keyCount ∧ machine.state.keypad.isDown key = true ∧
          ∀ lower < key, machine.state.keypad.isDown lower = false) ∧
    ∀ (machine : Machine) (key : UInt8) (between : List Operation),
      machine.Delivers key →
      (machine.step.machine.run between).Delivers key →
        Operation.setKey key true ∈ between := by
  refine ⟨?history, ?unnamed, ?lowest, ?once⟩
  case history =>
    intro random operations key named
    exact iff_since (fun machine => machine.state.keypad.isDown key = true)
      (isDown_perform_iff named) (by simp [new, State.initial]) operations
  case unnamed =>
    intro machine key down past
    have unnamed : Keypad.names key = false := by simpa [Keypad.names] using past
    rw [setKey, unnamed]
    rfl
  case lowest =>
    intro machine x awaited key
    obtain ⟨found, lowest, stored, _⟩ := delivery_of_awaited awaited
    cases stored
    exact Keypad.lowest_of_lowest? lowest
  case once =>
    intro machine key between first second
    exact pressed_between first second

/-- Of two keys that are down the lower one is delivered, and the other
stays. -/
example :
    let machine := (new (RandomSource.ofSeed 0)).run
      [.load [0xF1, 0x0A], .setKey 9 true, .setKey 7 true]
    machine.step.answer = .executed (.awaitKey 1) ∧
      machine.step.machine.state.register 1 = 7 ∧
      machine.step.machine.state.keypad.held = [9] := by
  decide +kernel

end Machine

end ChipEight
