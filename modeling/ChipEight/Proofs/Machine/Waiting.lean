import ChipEight.Proofs.Machine.Interleaving
import ChipEight.Proofs.Machine.KeyHistory
import ChipEight.Proofs.Machine.Reports

/-!
# Waiting for a key

An instruction that waits for a key leaves the counter where it is while no key
is down, and that is all by which a step tells a wait from a wait that is over.
A machine that has come to a wait is left as it is by its steps; timers, frames
and releases do not help it on, and no instruction can be written over its own.
The first key that is pressed ends the wait at the next step.
-/

namespace ChipEight

namespace State

/-- Whether a state has come to a wait for a key and no key is down. -/
structure Waiting (state : State) (x : UInt8) : Prop where
  pending : state.pending? = some (.awaitKey x)
  released : ∀ key, state.keypad.isDown key = false

theorem pending?_eq_some_iff {state : State} {instruction : Instruction} :
    state.pending? = some instruction ↔
      ∃ word, state.fetch = .ok word ∧
        Instruction.decode word = some instruction := by
  constructor
  · intro pending
    unfold pending? at pending
    split at pending
    · next word fetched => exact ⟨word, fetched, pending⟩
    · cases pending
  · rintro ⟨word, fetched, decoded⟩
    exact pending?_of_decode fetched decoded

end State

namespace Keypad

/-- A key that is pressed while all are up is the lowest that is down. -/
theorem lowest?_set_of_released {keypad : Keypad} {key : UInt8}
    (named : key.toNat < keyCount)
    (released : ∀ other, keypad.isDown other = false) :
    (keypad.set key true).lowest? = some key := by
  have only : ∀ other, (keypad.set key true).isDown other = true →
      other = key := by
    intro other down
    rw [isDown_set] at down
    split at down
    · next same => exact same.1.symm
    · cases (released other).symm.trans down
  cases lowest : (keypad.set key true).lowest? with
  | none =>
      have up := (lowest?_eq_none_iff _).mp lowest
      exact absurd ⟨key, by simp [named]⟩ up
  | some found => rw [only found (lowest_of_lowest? lowest).2.1]

end Keypad

namespace Machine

namespace Operation

/-- Whether an operation has to do neither with the program nor with keys. -/
def isAside : Operation → Bool
  | tick | frame | takeFrame | clearRedraw => true
  | _ => false

/-- Whether an operation gives a machine that waits nothing to go on with: it
resets nothing, loads nothing and presses no key. -/
def isIdle : Operation → Bool
  | step => true
  | setKey key down => !(down && Keypad.names key)
  | operation => operation.isAside

end Operation

variable {machine : Machine} {x : UInt8} {operations : List Operation}

/-! ### Steps that wait -/

theorem step_of_awaitKey {counter : Word}
    (pending : machine.state.pending? = some (.awaitKey x))
    (continues :
      (Instruction.awaitKey x).continuation machine.state = .ok counter) :
    let next :=
      { Instruction.keyTaken machine.state x with counter := counter }
    machine.step.machine.state = next ∧
      machine.step.machine.random = machine.random ∧
      machine.step.answer = outcomeOf (.awaitKey x) machine.state next := by
  intro next
  obtain ⟨word, fetched, decoded⟩ := State.pending?_eq_some_iff.mp pending
  have within := ((machine.state.fetch_eq_ok_iff word).mp fetched).1
  have produced : next = { (Instruction.awaitKey x).effect
      ((Instruction.awaitKey x).byteFrom machine.random) machine.state with
        counter := counter } := rfl
  have rule : machine.StepRule _ :=
    .ran within fetched decoded rfl continues produced
  rw [← rule.eq_step]
  exact ⟨rfl, rfl, rfl⟩

theorem step_of_waiting (waiting : machine.state.Waiting x) :
    machine.step.machine.state = machine.state ∧
      machine.step.machine.random = machine.random ∧
      machine.step.answer = .awaiting := by
  have lowest : machine.state.keypad.lowest? = none := by
    rw [Keypad.lowest?_eq_none_iff]
    rintro ⟨key, down⟩
    cases (waiting.released key).symm.trans down
  have continues : (Instruction.awaitKey x).continuation machine.state =
      .ok machine.state.counter := by
    rw [Instruction.continuation_awaitKey, lowest]
  have stepped := step_of_awaitKey waiting.pending continues
  have same : { Instruction.keyTaken machine.state x with
      counter := machine.state.counter } = machine.state := by
    rw [Instruction.keyTaken, lowest]
  rw [same] at stepped
  refine ⟨stepped.1, stepped.2.1, stepped.2.2.trans ?_⟩
  simp [outcomeOf, Instruction.awaitsKey]

/-- A step waits exactly if the instruction at the counter waits for a key and
no key is down.  With a key down the counter would move. -/
theorem awaiting_iff :
    machine.step.answer = .awaiting ↔ ∃ x, machine.state.Waiting x := by
  constructor
  case mpr =>
    rintro ⟨x, waiting⟩
    exact (step_of_waiting waiting).2.2
  case mp =>
    intro awaited
    have rule := machine.stepRule
    generalize machine.step = response at rule awaited
    cases rule with
    | unfetchable past => cases awaited
    | unknown within fetched undecoded => cases awaited
    | refused within fetched decoded refusal => cases awaited
    | @ran word instruction counter within fetched decoded accepted continues
        next produced =>
        simp only [succeed, outcomeOf] at awaited
        split at awaited
        case isFalse => cases awaited
        case isTrue still =>
          rw [Bool.and_eq_true, beq_iff_eq, produced] at still
          obtain ⟨waits, still⟩ := still
          cases instruction with
          | awaitKey x =>
              refine ⟨x, State.pending?_of_decode fetched decoded, ?_⟩
              rw [Instruction.continuation_awaitKey] at continues
              cases lowest : machine.state.keypad.lowest? with
              | none =>
                  intro key
                  rw [← Bool.not_eq_true]
                  intro down
                  exact (Keypad.lowest?_eq_none_iff _).mp lowest ⟨key, down⟩
              | some key =>
                  rw [lowest] at continues
                  have moved := Word.toNat_of_advance continues
                  rw [show counter = machine.state.counter from still] at moved
                  omega
          | _ => cases waits
    | crashed within fetched decoded accepted stops => cases awaited

/-- A wait ends with the lowest key that is down. -/
theorem step_of_lowest {key : UInt8}
    (pending : machine.state.pending? = some (.awaitKey x))
    (lowest : machine.state.keypad.lowest? = some key) :
    machine.step.answer = .executed (.awaitKey x) ∧
      machine.step.machine.state.register x = key ∧
      machine.step.machine.state.counter = machine.state.counter + 2 ∧
      machine.step.machine.state.keypad =
        machine.state.keypad.set key false := by
  obtain ⟨word, fetched, _⟩ := State.pending?_eq_some_iff.mp pending
  have within := ((machine.state.fetch_eq_ok_iff word).mp fetched).1
  have continues : (Instruction.awaitKey x).continuation machine.state =
      .ok (machine.state.counter + 2) := by
    rw [Instruction.continuation_awaitKey, lowest]
    exact Word.advance_of_lt (by omega)
  obtain ⟨next, _, answer⟩ := step_of_awaitKey pending continues
  have executed : machine.step.answer = .executed (.awaitKey x) := by
    have moved := counter_add_two_ne machine.state.counter
    simpa [outcomeOf, moved] using answer
  obtain ⟨found, same, stored, released⟩ := delivery_of_awaited executed
  cases lowest.symm.trans same
  exact ⟨executed, stored, by rw [next], released⟩

/-! ### Operations that do not end a wait -/

theorem exists_perform_of_isAside {operation : Operation}
    (aside : operation.isAside = true) (machine : Machine) :
    ∃ timers redraw,
      (machine.perform operation).machine =
        { machine with
          state :=
            { machine.state with timers := timers, redraw := redraw } } := by
  cases operation with
  | tick | frame | takeFrame | clearRedraw => exact ⟨_, _, rfl⟩
  | _ => cases aside

/-- A release, and the press of a byte that names no key, leave all keys up. -/
theorem released_setKey {key : UInt8} {down : Bool}
    (idle : (Operation.setKey key down).isIdle = true)
    (released : ∀ other, machine.state.keypad.isDown other = false)
    (other : UInt8) :
    (machine.setKey key down).machine.state.keypad.isDown other = false := by
  rw [setKey]
  split
  case isTrue named =>
    have lifted : down = false := by
      simpa [Operation.isIdle, named] using idle
    simp [lifted, released]
  case isFalse => exact released other

/-- An idle operation changes the timers, the keypad and the redraw flag at
most, and leaves all keys up. -/
theorem perform_of_waiting (waiting : machine.state.Waiting x)
    {operation : Operation} (idle : operation.isIdle = true) :
    (∃ timers redraw keypad,
      (machine.perform operation).machine.state =
        { machine.state with
          timers := timers
          redraw := redraw
          keypad := keypad }) ∧
      (machine.perform operation).machine.random = machine.random ∧
      (machine.perform operation).machine.state.Waiting x := by
  by_cases aside : operation.isAside = true
  · obtain ⟨timers, redraw, same⟩ := exists_perform_of_isAside aside machine
    rw [same]
    exact ⟨⟨_, _, _, rfl⟩, rfl, waiting.pending, waiting.released⟩
  · cases operation with
    | step =>
        obtain ⟨same, random, _⟩ := step_of_waiting waiting
        simp only [perform, Response.map, same, random, true_and]
        exact ⟨⟨_, _, _, rfl⟩, waiting⟩
    | setKey key down =>
        have released := released_setKey idle waiting.released
        have adjusted := machine.perform_setKey key down
        refine ⟨?_, ?_, ?_, released⟩
        · rw [adjusted]
          exact ⟨_, _, _, rfl⟩
        · rw [adjusted]
          rfl
        · rw [adjusted]
          exact waiting.pending
    | _ => exact absurd idle aside

/-- Idle operations in any number keep a machine waiting. -/
theorem run_of_waiting (waiting : machine.state.Waiting x)
    (idle : ∀ operation ∈ operations, operation.isIdle = true) :
    (∃ timers redraw keypad,
      (machine.run operations).state =
        { machine.state with
          timers := timers
          redraw := redraw
          keypad := keypad }) ∧
      (machine.run operations).random = machine.random ∧
      (machine.run operations).state.Waiting x := by
  induction operations generalizing machine with
  | nil => exact ⟨⟨_, _, _, rfl⟩, rfl, waiting⟩
  | cons operation rest ih =>
      rw [List.forall_mem_cons] at idle
      obtain ⟨⟨_, _, _, first⟩, random, still⟩ :=
        perform_of_waiting waiting idle.1
      obtain ⟨⟨_, _, _, later⟩, source, after⟩ := ih still idle.2
      refine ⟨?_, source.trans random, after⟩
      rw [run_cons, later, first]
      exact ⟨_, _, _, rfl⟩

theorem answersTo_of_waiting (waiting : machine.state.Waiting x)
    (idle : ∀ operation ∈ operations, operation.isIdle = true) :
    ∀ answer ∈ machine.answersTo Operation.isStep operations,
      answer = .step .awaiting := by
  induction operations generalizing machine with
  | nil => intro answer told; cases told
  | cons operation rest ih =>
      rw [List.forall_mem_cons] at idle
      have later := ih (perform_of_waiting waiting idle.1).2.2 idle.2
      intro answer told
      rw [answersTo_cons, List.mem_append] at told
      rcases told with here | told
      · cases operation with
        | step =>
            rw [List.mem_singleton.mp here]
            exact congrArg Answer.step (step_of_waiting waiting).2.2
        | _ => cases here
      · exact later answer told

theorem run_of_isAside
    (aside : ∀ operation ∈ operations, operation.isAside = true)
    (machine : Machine) :
    ∃ timers redraw,
      (machine.run operations).state =
        { machine.state with timers := timers, redraw := redraw } := by
  induction operations generalizing machine with
  | nil => exact ⟨_, _, rfl⟩
  | cons operation rest ih =>
      rw [List.forall_mem_cons] at aside
      obtain ⟨_, _, first⟩ := machine.exists_perform_of_isAside aside.1
      obtain ⟨_, _, later⟩ := ih aside.2 (machine.perform operation).machine
      rw [run_cons, later, first]
      exact ⟨_, _, rfl⟩

/-! ### The key that ends a wait -/

theorem exists_run_of_pressed
    (aside : ∀ operation ∈ operations, operation.isAside = true)
    (machine : Machine) (key : UInt8) :
    ∃ timers redraw,
      (machine.run (.setKey key true :: operations)).state =
        { machine.state with
          timers := timers
          redraw := redraw
          keypad := machine.state.keypad.set key true } := by
  obtain ⟨timers, redraw, same⟩ :=
    run_of_isAside aside (machine.perform (.setKey key true)).machine
  rw [run_cons, same, perform_setKey]
  exact ⟨_, _, rfl⟩

theorem delivery_of_pressed {key : UInt8} (waiting : machine.state.Waiting x)
    (named : key.toNat < keyCount)
    (aside : ∀ operation ∈ operations, operation.isAside = true) :
    let pressed := machine.run (.setKey key true :: operations)
    let delivered := pressed.step.machine.state
    pressed.step.answer = .executed (.awaitKey x) ∧
      delivered.register x = key ∧
      delivered.counter = machine.state.counter + 2 ∧
      ∀ other, delivered.keypad.isDown other = false := by
  intro pressed delivered
  obtain ⟨timers, redraw, same⟩ := exists_run_of_pressed aside machine key
  have lowest : pressed.state.keypad.lowest? = some key := by
    rw [show pressed.state = _ from same]
    exact Keypad.lowest?_set_of_released named waiting.released
  have pending : pressed.state.pending? = some (.awaitKey x) := by
    rw [show pressed.state = _ from same]
    exact waiting.pending
  obtain ⟨executed, stored, moved, lifted⟩ := step_of_lowest pending lowest
  refine ⟨executed, stored, ?_, ?_⟩
  · rw [show delivered.counter = _ from moved,
      show pressed.state = _ from same]
  · intro other
    rw [show delivered.keypad = _ from lifted, show pressed.state = _ from same,
      Keypad.isDown_set, Keypad.isDown_set]
    split
    · rfl
    · exact waiting.released other

/-- A step waits exactly if the word at the counter is an instruction that
waits for a key and no key is down, and then it changes nothing and draws no
random byte.  A machine that waits keeps waiting, with its counter, registers,
memory and frame, until it is reset, gets a program or a key is pressed.  The
next step after the first press delivers that key, and then no key is down. -/
theorem waits_until_pressed :
    (∀ machine : Machine,
      (machine.step.answer = .awaiting ↔
        ∃ word x, machine.state.fetch = .ok word ∧
          Instruction.decode word = some (.awaitKey x) ∧
          ∀ key, machine.state.keypad.isDown key = false) ∧
      (machine.step.answer = .awaiting →
        machine.step.machine.state = machine.state ∧
          machine.step.machine.random = machine.random)) ∧
    ∀ (machine : Machine) (x : UInt8) (operations : List Operation),
      machine.state.Waiting x →
      (∀ operation ∈ operations, operation.isIdle = true) →
        let after := machine.run operations
        (∀ answer ∈ machine.answersTo Operation.isStep operations,
          answer = .step .awaiting) ∧
        after.state.counter = machine.state.counter ∧
        after.state.registers = machine.state.registers ∧
        after.state.memory = machine.state.memory ∧
        after.state.frame = machine.state.frame ∧
        after.random = machine.random ∧
        ∀ (key : UInt8) (between : List Operation),
          key.toNat < keyCount →
          (∀ operation ∈ between, operation.isAside = true) →
            let pressed := after.run (.setKey key true :: between)
            let delivered := pressed.step.machine.state
            pressed.step.answer = .executed (.awaitKey x) ∧
            delivered.register x = key ∧
            delivered.counter = machine.state.counter + 2 ∧
            ∀ other, delivered.keypad.isDown other = false := by
  refine ⟨?step, ?run⟩
  case step =>
    intro machine
    constructor
    · rw [awaiting_iff]
      constructor
      · rintro ⟨x, waiting⟩
        obtain ⟨word, fetched, decoded⟩ :=
          State.pending?_eq_some_iff.mp waiting.pending
        exact ⟨word, x, fetched, decoded, waiting.released⟩
      · rintro ⟨word, x, fetched, decoded, released⟩
        exact ⟨x, State.pending?_of_decode fetched decoded, released⟩
    · intro awaited
      obtain ⟨x, waiting⟩ := awaiting_iff.mp awaited
      obtain ⟨same, random, _⟩ := step_of_waiting waiting
      exact ⟨same, random⟩
  case run =>
    intro machine x operations waiting idle after
    obtain ⟨⟨_, _, _, same⟩, random, still⟩ := run_of_waiting waiting idle
    have kept : after.state.counter = machine.state.counter ∧
        after.state.registers = machine.state.registers ∧
        after.state.memory = machine.state.memory ∧
        after.state.frame = machine.state.frame := by
      rw [show after.state = _ from same]
      exact ⟨rfl, rfl, rfl, rfl⟩
    obtain ⟨counter, registers, memory, frame⟩ := kept
    refine ⟨answersTo_of_waiting waiting idle, counter, registers, memory, frame,
      random, ?_⟩
    intro key between named aside pressed delivered
    obtain ⟨executed, stored, moved, released⟩ :=
      delivery_of_pressed still named aside
    exact ⟨executed, stored, moved.trans (congrArg (· + 2) counter), released⟩

/-- A wait through steps, ticks, a release and a byte that names no key, ended
by the key seven. -/
theorem waits_until_pressed_seven :
    let machine := (new (RandomSource.ofWords fun _ => 0)).run
      [.load [0xF1, 0x0A]]
    let operations : List Operation :=
      [.step, .tick, .setKey 7 false, .setKey 0x17 true, .takeFrame, .step]
    let pressed := machine.run (operations ++ [.setKey 7 true, .tick])
    machine.state.Waiting 1 ∧
      (∀ operation ∈ operations, operation.isIdle = true) ∧
      (∀ answer ∈ machine.answersTo Operation.isStep operations,
        answer = .step .awaiting) ∧
      pressed.step.answer = .executed (.awaitKey 1) ∧
      pressed.step.machine.state.register 1 = 7 := by
  intro machine operations pressed
  have pending : machine.state.pending? = some (.awaitKey 1) := by
    decide +kernel
  have waiting : machine.state.Waiting 1 := ⟨pending, Keypad.isDown_released⟩
  have idle : ∀ operation ∈ operations, operation.isIdle = true := by decide
  obtain ⟨answers, _, _, _, _, _, delivery⟩ :=
    waits_until_pressed.2 machine 1 operations waiting idle
  obtain ⟨executed, stored, _⟩ := delivery 7 [.tick] (by decide) (by decide)
  rw [← run_append] at executed stored
  exact ⟨waiting, idle, answers, executed, stored⟩

end Machine

end ChipEight
