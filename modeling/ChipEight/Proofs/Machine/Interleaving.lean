import ChipEight.Proofs.Instruction.Adjustment
import ChipEight.Proofs.Machine.Redraw
import ChipEight.Proofs.Machine.Transcript

/-!
# The two loops may interleave

The processor makes steps; the frame loop lets the timers tick, sets keys and
takes frames.  Two operations are exchangeable at a machine if both orders lead
to the same machine with the same answers.  An operation of the frame loop is
exchangeable with a step unless the pending instruction uses what the operation
adjusts, and operations of the frame loop of different kinds are always
exchangeable.

So if no step of a run meets an instruction that uses the timers, the keys or
the frame, the order in which the loops came to their turns does not matter.
-/

namespace ChipEight

/-- The items of two lists put together, each list in its own order. -/
inductive Interleaves {Item : Type} :
    List Item → List Item → List Item → Prop
  | nil : Interleaves [] [] []
  | left (item : Item) {first second merged : List Item}
      (rest : Interleaves first second merged) :
      Interleaves (item :: first) second (item :: merged)
  | right (item : Item) {first second merged : List Item}
      (rest : Interleaves first second merged) :
      Interleaves first (item :: second) (item :: merged)

namespace State

/-- The instruction at the counter, if there is one. -/
def pending? (state : State) : Option Instruction :=
  match state.fetch with
  | .ok word => Instruction.decode word
  | .error _ => none

theorem pending?_of_decode {state : State} {word : Word}
    {instruction : Instruction} (fetched : state.fetch = .ok word)
    (decoded : Instruction.decode word = some instruction) :
    instruction ∈ state.pending? := by
  rw [pending?, fetched]
  exact decoded

theorem pending?_adjust (state : State) (adjustment : Adjustment) :
    (state.adjust adjustment).pending? = state.pending? := rfl

end State

namespace Instruction

/-- Whether an instruction uses nothing that adjustments change. -/
def isPrivate (instruction : Instruction) : Bool :=
  !(instruction.usesTimers || instruction.usesKeys || instruction.changesFrame)

end Instruction

namespace Machine

namespace Operation

/-- Whether an operation adjusts a state from outside. -/
def adjusts : Operation → Bool
  | tick | setKey _ _ | takeFrame => true
  | _ => false

def isStep : Operation → Bool
  | step => true
  | _ => false

/-- How an operation adjusts a state. -/
def adjustment : Operation → Adjustment
  | tick => { timers := Countdown.next }
  | setKey key down => { keypad := fun keypad => keypad.set key down }
  | takeFrame => { redraw := fun _ => false }
  | _ => {}

/-- Whether an operation adjusts what an instruction uses. -/
def meets : Operation → Instruction → Bool
  | tick, instruction => instruction.usesTimers
  | setKey _ _, instruction => instruction.usesKeys
  | takeFrame, instruction => instruction.changesFrame
  | _, _ => false

theorem isStep_of_adjusts {operation : Operation}
    (adjusts : operation.adjusts = true) : operation.isStep = false := by
  cases operation with
  | step => cases adjusts
  | _ => rfl

theorem ignores_of_not_meets {operation : Operation}
    {instruction : Instruction} (apart : operation.meets instruction = false) :
    instruction.Ignores operation.adjustment := by
  cases operation with
  | tick =>
      refine ⟨fun uses => ?_, fun _ => rfl, fun _ => rfl⟩
      cases uses.symm.trans apart
  | setKey key down =>
      refine ⟨fun _ => rfl, fun uses => ?_, fun _ => rfl⟩
      cases uses.symm.trans apart
  | takeFrame =>
      refine ⟨fun _ => rfl, fun _ => rfl, fun uses => ?_⟩
      cases uses.symm.trans apart
  | _ => exact ⟨fun _ => rfl, fun _ => rfl, fun _ => rfl⟩

theorem not_meets_of_isPrivate {instruction : Instruction}
    (isPrivate : instruction.isPrivate = true) (operation : Operation) :
    operation.meets instruction = false := by
  simp only [Instruction.isPrivate, Bool.not_eq_true', Bool.or_eq_false_iff]
    at isPrivate
  obtain ⟨⟨timers, keys⟩, frame⟩ := isPrivate
  cases operation with
  | tick => exact timers
  | setKey key down => exact keys
  | takeFrame => exact frame
  | _ => rfl

end Operation

/-- The machine after a change from outside. -/
def adjust (machine : Machine) (adjustment : Adjustment) : Machine :=
  { machine with state := machine.state.adjust adjustment }

/-- A byte that names no key adjusts nothing, and is ignored as well. -/
theorem perform_setKey (machine : Machine) (key : UInt8) (down : Bool) :
    (machine.perform (.setKey key down)).machine =
      machine.adjust (Operation.setKey key down).adjustment := by
  simp only [perform, setKey, Response.map]
  split
  case isTrue named => rfl
  case isFalse unnamed =>
    have past : 16 ≤ key.toNat := by
      simpa [Keypad.names, keyCount] using unnamed
    have same : machine.state.keypad.set key down = machine.state.keypad := by
      simp [Keypad.set, Vector.setIfInBounds_eq_of_size_le past]
    have adjusted : machine.adjust (Operation.setKey key down).adjustment =
        { machine with
          state :=
            { machine.state with
              keypad := machine.state.keypad.set key down } } := rfl
    rw [adjusted, same]

theorem perform_of_adjusts {operation : Operation}
    (adjusts : operation.adjusts = true) (machine : Machine) :
    (machine.perform operation).machine =
      machine.adjust operation.adjustment := by
  cases operation with
  | setKey key down => exact machine.perform_setKey key down
  | tick => rfl
  | takeFrame => rfl
  | _ => cases adjusts

/-! ### Single steps -/

section Steps

variable {machine : Machine}

/-- A step does the same before an adjustment that its instruction ignores and
after it: each rule holds of the adjusted machine for the same reasons. -/
theorem step_adjust {adjustment : Adjustment}
    (ignored : ∀ instruction ∈ machine.state.pending?,
      instruction.Ignores adjustment) :
    (machine.adjust adjustment).step.machine =
        machine.step.machine.adjust adjustment ∧
      (machine.adjust adjustment).step.answer = machine.step.answer := by
  have rule := machine.stepRule
  generalize machine.step = response at rule ⊢
  cases rule with
  | unfetchable past =>
      have adjusted : (machine.adjust adjustment).StepRule _ :=
        .unfetchable past
      rw [← adjusted.eq_step]
      exact ⟨rfl, rfl⟩
  | unknown within fetched undecoded =>
      have adjusted : (machine.adjust adjustment).StepRule _ :=
        .unknown within fetched undecoded
      rw [← adjusted.eq_step]
      exact ⟨rfl, rfl⟩
  | @refused word instruction fault within fetched decoded refusal =>
      rw [← instruction.fault?_adjust machine.state adjustment] at refusal
      have adjusted : (machine.adjust adjustment).StepRule _ :=
        .refused within fetched decoded refusal
      rw [← adjusted.eq_step]
      exact ⟨rfl, rfl⟩
  | @ran word instruction counter within fetched decoded accepted continues
      next produced =>
      have ignores := ignored _ (State.pending?_of_decode fetched decoded)
      rw [← instruction.fault?_adjust machine.state adjustment] at accepted
      rw [← Instruction.continuation_adjust ignores machine.state]
        at continues
      have after : next.adjust adjustment =
          { instruction.effect (instruction.byteFrom machine.random)
              (machine.state.adjust adjustment) with counter := counter } := by
        rw [Instruction.effect_adjust ignores, produced]
        rfl
      have adjusted := @StepRule.ran (machine.adjust adjustment) word
        instruction counter within fetched decoded accepted continues _ after
      rw [← adjusted.eq_step]
      exact ⟨rfl, rfl⟩
  | @crashed word instruction cause within fetched decoded accepted stops =>
      have ignores := ignored _ (State.pending?_of_decode fetched decoded)
      rw [← instruction.fault?_adjust machine.state adjustment] at accepted
      rw [← Instruction.continuation_adjust ignores machine.state] at stops
      have adjusted : (machine.adjust adjustment).StepRule _ :=
        .crashed within fetched decoded accepted stops
      rw [← adjusted.eq_step]
      exact ⟨rfl, rfl⟩

/-- An instruction that does not use the timers keeps them, since it ignores
their being set to what they are. -/
theorem timers_step
    (unused : ∀ instruction ∈ machine.state.pending?,
      instruction.usesTimers = false) :
    machine.step.machine.state.timers = machine.state.timers := by
  let fixed : Adjustment := { timers := fun _ => machine.state.timers }
  have ignored : ∀ instruction ∈ machine.state.pending?,
      instruction.Ignores fixed := by
    intro instruction pending
    refine ⟨fun uses => ?_, fun _ => rfl, fun _ => rfl⟩
    cases uses.symm.trans (unused instruction pending)
  have same : (machine.adjust fixed).step.machine.state.timers =
      machine.state.timers := by
    rw [(step_adjust ignored).1]
    rfl
  exact same

theorem not_draws_of_pending
    (unused : ∀ instruction ∈ machine.state.pending?,
      instruction.changesFrame = false) :
    machine.step.answer.draws = false := by
  cases outcome : machine.step.answer with
  | executed instruction =>
      obtain ⟨word, counter, _, fetched, decoded, _⟩ :=
        execution_of_executed outcome
      exact unused instruction (State.pending?_of_decode fetched decoded)
  | _ => rfl

theorem frame?_step
    (unused : ∀ instruction ∈ machine.state.pending?,
      instruction.changesFrame = false) :
    machine.step.machine.frame? = machine.frame? := by
  have idle := not_draws_of_pending unused
  have redraw := machine.redraw_step
  rw [idle, Bool.false_or] at redraw
  rw [frame?, frame?, redraw, frame_step_of_not_draws idle]

end Steps

/-- Either order of two operations leads to the same machine, and each of them
is told the same. -/
structure Exchangeable (machine : Machine) (first second : Operation) :
    Prop where
  machine_eq :
    ((machine.perform first).machine.perform second).machine =
      ((machine.perform second).machine.perform first).machine
  first_answer :
    ((machine.perform second).machine.perform first).answer =
      (machine.perform first).answer
  second_answer :
    ((machine.perform first).machine.perform second).answer =
      (machine.perform second).answer

/-- An adjustment and a step are exchangeable unless the pending instruction
uses what is adjusted. -/
theorem exchangeable_step {machine : Machine} {operation : Operation}
    (adjusts : operation.adjusts = true)
    (apart : ∀ instruction ∈ machine.state.pending?,
      operation.meets instruction = false) :
    machine.Exchangeable operation .step := by
  have adjusted := step_adjust fun instruction pending =>
    Operation.ignores_of_not_meets (apart instruction pending)
  constructor
  case machine_eq =>
    rw [perform_of_adjusts adjusts, perform_of_adjusts adjusts]
    exact adjusted.1
  case second_answer =>
    rw [perform_of_adjusts adjusts]
    exact congrArg Answer.step adjusted.2
  case first_answer =>
    cases operation with
    | tick =>
        have same := timers_step apart
        simp only [perform, Response.map, tick, same]
    | setKey key down => rfl
    | takeFrame =>
        have same := frame?_step apart
        simp only [perform, Response.map, takeFrame, same]
    | _ => cases adjusts

theorem exchangeable_tick_setKey (machine : Machine) (key : UInt8)
    (down : Bool) : machine.Exchangeable .tick (.setKey key down) := by
  refine ⟨?_, ?_, rfl⟩
  · rw [perform_setKey, perform_setKey]
    rfl
  · rw [perform_setKey]
    rfl

theorem exchangeable_tick_takeFrame (machine : Machine) :
    machine.Exchangeable .tick .takeFrame := ⟨rfl, rfl, rfl⟩

theorem exchangeable_setKey_takeFrame (machine : Machine) (key : UInt8)
    (down : Bool) : machine.Exchangeable (.setKey key down) .takeFrame := by
  refine ⟨?_, rfl, ?_⟩
  · rw [perform_setKey, perform_setKey]
    rfl
  · rw [perform_setKey]
    rfl

/-! ### Whole runs -/

/-- Every step of a run finds a private instruction or none. -/
def StepsPrivately (machine : Machine) : List Operation → Prop
  | [] => True
  | operation :: rest =>
    (operation = .step → ∀ instruction ∈ machine.state.pending?,
      instruction.isPrivate = true) ∧
      (machine.perform operation).machine.StepsPrivately rest

instance decidableStepsPrivately : (machine : Machine) →
    (operations : List Operation) →
      Decidable (machine.StepsPrivately operations)
  | _, [] => .isTrue trivial
  | machine, operation :: rest =>
    have := decidableStepsPrivately (machine.perform operation).machine rest
    have : Decidable (∀ instruction ∈ machine.state.pending?,
      instruction.isPrivate = true) := inferInstance
    inferInstanceAs (Decidable (_ ∧ _))

section Runs

variable {machine : Machine} {operation : Operation}
variable {steps adjustments merged : List Operation}

theorem exchangeable_of_isPrivate (adjusts : operation.adjusts = true)
    (isPrivate : ∀ instruction ∈ machine.state.pending?,
      instruction.isPrivate = true) :
    machine.Exchangeable operation .step :=
  exchangeable_step adjusts fun instruction pending =>
    Operation.not_meets_of_isPrivate (isPrivate instruction pending) operation

/-- Whether steps are private does not depend on an adjustment before them. -/
theorem stepsPrivately_perform_iff (adjusts : operation.adjusts = true)
    (stepping : ∀ each ∈ steps, each = Operation.step) :
    (machine.perform operation).machine.StepsPrivately steps ↔
      machine.StepsPrivately steps := by
  induction steps generalizing machine with
  | nil => exact Iff.rfl
  | cons first rest ih =>
      obtain ⟨rfl, later⟩ := List.forall_mem_cons.mp stepping
      have pending : (machine.perform operation).machine.state.pending? =
          machine.state.pending? := by
        rw [perform_of_adjusts adjusts]
        exact State.pending?_adjust _ _
      simp only [StepsPrivately, pending, true_imp_iff]
      refine and_congr_right fun isPrivate => ?_
      rw [(exchangeable_of_isPrivate adjusts isPrivate).machine_eq]
      exact ih later

/-- An adjustment may be made after private steps instead of before them. -/
theorem exchange_steps (adjusts : operation.adjusts = true)
    (stepping : ∀ each ∈ steps, each = Operation.step)
    (keeps : machine.StepsPrivately steps) (chosen : Operation → Bool) :
    (machine.perform operation).machine.run steps =
        ((machine.run steps).perform operation).machine ∧
      ((machine.run steps).perform operation).answer =
        (machine.perform operation).answer ∧
      (machine.perform operation).machine.answersTo chosen steps =
        machine.answersTo chosen steps := by
  induction steps generalizing machine with
  | nil => exact ⟨rfl, rfl, rfl⟩
  | cons first rest ih =>
      obtain ⟨rfl, later⟩ := List.forall_mem_cons.mp stepping
      have exchange := exchangeable_of_isPrivate adjusts (keeps.1 rfl)
      obtain ⟨end_eq, answer_eq, answers_eq⟩ := ih later keeps.2
      refine ⟨?_, ?_, ?_⟩
      · rw [run_cons, run_cons, exchange.machine_eq]
        exact end_eq
      · rw [run_cons, answer_eq]
        exact exchange.first_answer
      · rw [answersTo_cons, answersTo_cons, exchange.second_answer,
          exchange.machine_eq, answers_eq]

theorem stepsPrivately_of_interleaves
    (interleaves : Interleaves steps adjustments merged)
    (stepping : ∀ each ∈ steps, each = Operation.step)
    (adjusting : ∀ operation ∈ adjustments, operation.adjusts = true)
    (keeps : machine.StepsPrivately merged) :
    machine.StepsPrivately steps := by
  induction interleaves generalizing machine with
  | nil => exact keeps
  | left item rest ih =>
      have later := (List.forall_mem_cons.mp stepping).2
      exact ⟨keeps.1, ih later adjusting keeps.2⟩
  | right item rest ih =>
      obtain ⟨adjusts, later⟩ := List.forall_mem_cons.mp adjusting
      exact (stepsPrivately_perform_iff adjusts stepping).mp
        (ih stepping later keeps.2)

/-- An interleaving of private steps and adjustments comes to what the steps
alone come to, followed by the adjustments. -/
theorem run_of_interleaves
    (interleaves : Interleaves steps adjustments merged)
    (stepping : ∀ each ∈ steps, each = Operation.step)
    (adjusting : ∀ operation ∈ adjustments, operation.adjusts = true)
    (keeps : machine.StepsPrivately steps) :
    machine.run merged = (machine.run steps).run adjustments ∧
      machine.answersTo Operation.isStep merged =
        machine.answersTo Operation.isStep steps ∧
      machine.answersTo Operation.adjusts merged =
        (machine.run steps).answersTo Operation.adjusts adjustments := by
  induction interleaves generalizing machine with
  | nil => exact ⟨rfl, rfl, rfl⟩
  | left item rest ih =>
      obtain ⟨rfl, later⟩ := List.forall_mem_cons.mp stepping
      obtain ⟨end_eq, steps_eq, adjustments_eq⟩ := ih later adjusting keeps.2
      refine ⟨end_eq, ?_, ?_⟩
      · rw [answersTo_cons, answersTo_cons, steps_eq]
      · rw [answersTo_cons, adjustments_eq]
        rfl
  | right item rest ih =>
      obtain ⟨adjusts, later⟩ := List.forall_mem_cons.mp adjusting
      have moved := (stepsPrivately_perform_iff adjusts stepping).mpr keeps
      obtain ⟨end_eq, steps_eq, adjustments_eq⟩ := ih stepping later moved
      obtain ⟨past_eq, answer_eq, answers_eq⟩ :=
        exchange_steps adjusts stepping keeps Operation.isStep
      refine ⟨?_, ?_, ?_⟩
      · rw [run_cons, end_eq, past_eq, run_cons]
      · rw [answersTo_cons, Operation.isStep_of_adjusts adjusts, steps_eq,
          answers_eq]
        rfl
      · rw [answersTo_cons, answersTo_cons, adjustments_eq, past_eq, answer_eq]

end Runs

/-- A step and an operation of the frame loop are exchangeable unless the
pending instruction uses what the operation adjusts: the timers, the keys or the
frame.  Operations of the frame loop of different kinds are exchangeable.
So two runs of the same steps and the same operations of the frame loop, each in
its own order, end in the same machine with the same answers, if no step of one
of them finds an instruction that uses the timers, the keys or the frame. -/
theorem interleavings_agree (machine : Machine) :
    ((∀ instruction ∈ machine.state.pending?,
        instruction.usesTimers = false) →
      machine.Exchangeable .tick .step) ∧
    ((∀ instruction ∈ machine.state.pending?, instruction.usesKeys = false) →
      ∀ key down, machine.Exchangeable (.setKey key down) .step) ∧
    ((∀ instruction ∈ machine.state.pending?,
        instruction.changesFrame = false) →
      machine.Exchangeable .takeFrame .step) ∧
    (∀ key down, machine.Exchangeable .tick (.setKey key down)) ∧
    machine.Exchangeable .tick .takeFrame ∧
    (∀ key down, machine.Exchangeable (.setKey key down) .takeFrame) ∧
    ∀ (count : Nat) (adjustments one other : List Operation),
      (∀ operation ∈ adjustments, operation.adjusts = true) →
      Interleaves (List.replicate count .step) adjustments one →
      Interleaves (List.replicate count .step) adjustments other →
      machine.StepsPrivately one →
        machine.run one = machine.run other ∧
          machine.answersTo Operation.isStep one =
            machine.answersTo Operation.isStep other ∧
          machine.answersTo Operation.adjusts one =
            machine.answersTo Operation.adjusts other := by
  refine ⟨fun unused => exchangeable_step rfl unused,
    fun unused key down => exchangeable_step rfl unused,
    fun unused => exchangeable_step rfl unused,
    machine.exchangeable_tick_setKey, machine.exchangeable_tick_takeFrame,
    machine.exchangeable_setKey_takeFrame, ?_⟩
  intro count adjustments one other adjusting first second keeps
  have stepping : ∀ each ∈ List.replicate count Operation.step,
      each = Operation.step := fun _ => List.eq_of_mem_replicate
  have steps := stepsPrivately_of_interleaves first stepping adjusting keeps
  obtain ⟨end_one, steps_one, adjustments_one⟩ :=
    run_of_interleaves first stepping adjusting steps
  obtain ⟨end_other, steps_other, adjustments_other⟩ :=
    run_of_interleaves second stepping adjusting steps
  exact ⟨end_one.trans end_other.symm, steps_one.trans steps_other.symm,
    adjustments_one.trans adjustments_other.symm⟩

/-- Counting up uses nothing that the frame loop adjusts. -/
example :
    let machine := (new (RandomSource.ofSeed 0)).run [.load [0x70, 0x01]]
    machine.StepsPrivately [.tick, .setKey 3 true, .step, .takeFrame] := by
  decide +kernel

/-- A read of the delay timer tells a tick before it from a tick after it. -/
example :
    let machine := ((new (RandomSource.ofSeed 0)).run
      [.load [0xF1, 0x07]]).adjust { timers := fun _ => ⟨1, 0⟩ }
    (machine.run [.tick, .step]).state.register 1 = 0 ∧
      (machine.run [.step, .tick]).state.register 1 = 1 := by
  decide +kernel

end Machine

end ChipEight
