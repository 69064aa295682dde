import ChipEight.Proofs.Machine.Safety
import ChipEight.Proofs.Machine.Transcript
import Mathlib.Data.List.Infix

/-!
# Calls nest

The call stack is an array with a moving depth, and a slot above the depth
keeps whatever was last put there.  Still calls nest: as long as the stack stays
deeper than it was at a call, nothing that happens reaches the slots up to that
of the call, and the return that answers the call goes on right after it.  The
depth is at every moment the number of calls executed less that of returns.
-/

namespace ChipEight

namespace Instruction

def isCall : Instruction → Bool
  | call _ => true
  | _ => false

end Instruction

namespace Machine

/-- The number of return addresses in use. -/
def depth (machine : Machine) : Nat :=
  machine.state.stack.depth.toNat

/-- The call stack after a step at some counter, told by what the step did. -/
def Outcome.stackAfter (stack : CallStack) (counter : Word) :
    Outcome → CallStack
  | executed .leave => stack.pop
  | executed (.call _) => stack.push counter
  | _ => stack

theorem stackAfter_outcomeOf (stack : CallStack) (counter : Word)
    (instruction : Instruction) (before after : State) :
    (outcomeOf instruction before after).stackAfter stack counter =
      (Outcome.executed instruction).stackAfter stack counter :=
  apply_outcomeOf (Outcome.stackAfter stack counter) (fun _ => rfl)
    instruction before after

/-- Only executed calls and returns touch the call stack. -/
theorem stack_step (machine : Machine) :
    machine.step.machine.state.stack =
      machine.step.answer.stackAfter machine.state.stack
        machine.state.counter := by
  have rule := machine.stepRule
  generalize machine.step = response at rule ⊢
  cases rule with
  | unfetchable past => rfl
  | unknown within fetched undecoded => rfl
  | refused within fetched decoded refusal => rfl
  | @ran word instruction counter within fetched decoded accepted continues
      next produced =>
      rw [produced]
      simp only [succeed, stackAfter_outcomeOf, Instruction.stack_effect]
      cases instruction <;> rfl
  | crashed within fetched decoded accepted stops => rfl

theorem depth_of_called {machine : Machine} {target : Word}
    (called : machine.step.answer = .executed (.call target)) :
    machine.depth < stackCapacity ∧
      machine.step.machine.depth = machine.depth + 1 := by
  obtain ⟨word, counter, within, fetched, decoded, accepted, continues, _⟩ :=
    execution_of_executed called
  have room := Instruction.depth_lt_of_accepted accepted
  refine ⟨room, ?_⟩
  rw [depth, stack_step, called]
  exact CallStack.toNat_depth_push room _

theorem depth_of_returned {machine : Machine}
    (returned : machine.step.answer = .executed .leave) :
    machine.step.machine.depth + 1 = machine.depth := by
  obtain ⟨word, counter, within, fetched, decoded, accepted, continues, _⟩ :=
    execution_of_executed returned
  rw [depth, stack_step, returned]
  exact CallStack.toNat_depth_pop
    (Instruction.depth_ne_zero_of_accepted accepted)

/-! ### Slots below the depth -/

section Slots

variable {machine : Machine} {operation : Operation}
variable {operations : List Operation} {level index : Nat}

theorem slot?_step_of_deeper (deep : level < machine.depth)
    (low : index ≤ level) :
    machine.step.machine.state.stack.slot? index =
      machine.state.stack.slot? index := by
  have apart : machine.state.stack.depth.toNat ≠ index := by
    rw [depth] at deep
    omega
  rw [stack_step]
  cases machine.step.answer with
  | executed instruction =>
      cases instruction with
      | call target =>
          change (machine.state.stack.push _).slot? index = _
          rw [CallStack.slot?_push, if_neg fun same => apart same.1]
      | _ => rfl
  | _ => rfl

theorem stack_perform (unstepped : operation ≠ .step)
    (unreset : operation ≠ .reset) :
    (machine.perform operation).machine.state.stack = machine.state.stack := by
  obtain ⟨memory, timers, redraw, keypad, same⟩ :=
    machine.exists_perform_eq unstepped unreset
  rw [same]

theorem slot?_perform_of_deeper (deep : level < machine.depth)
    (low : index ≤ level) (unreset : operation ≠ .reset) :
    (machine.perform operation).machine.state.stack.slot? index =
      machine.state.stack.slot? index := by
  by_cases stepped : operation = .step
  · rw [stepped]
    exact slot?_step_of_deeper deep low
  · rw [stack_perform stepped unreset]

/-- The stack is deeper than a level before, between and after the
operations. -/
def StaysDeeper (machine : Machine) (level : Nat)
    (operations : List Operation) : Prop :=
  ∀ before, before <+: operations → level < (machine.run before).depth

instance (machine : Machine) (level : Nat) (operations : List Operation) :
    Decidable (machine.StaysDeeper level operations) :=
  decidable_of_iff
    (∀ before ∈ operations.inits, level < (machine.run before).depth)
    (forall_congr' fun before =>
      imp_congr_left (List.mem_inits before operations))

theorem StaysDeeper.first (stays : machine.StaysDeeper level operations) :
    level < machine.depth :=
  stays [] List.nil_prefix

theorem StaysDeeper.tail
    (stays : machine.StaysDeeper level (operation :: operations)) :
    (machine.perform operation).machine.StaysDeeper level operations :=
  fun before within =>
    stays (operation :: before) (List.cons_prefix_cons.mpr ⟨rfl, within⟩)

/-- While the stack stays deeper than a level, the slots up to that level keep
their addresses. -/
theorem slot?_run_of_staysDeeper (unreset : Operation.reset ∉ operations)
    (stays : machine.StaysDeeper level operations) (low : index ≤ level) :
    (machine.run operations).state.stack.slot? index =
      machine.state.stack.slot? index := by
  induction operations generalizing machine with
  | nil => rfl
  | cons operation rest ih =>
      rw [List.mem_cons, not_or] at unreset
      rw [run_cons, ih unreset.2 stays.tail,
        slot?_perform_of_deeper stays.first low (Ne.symm unreset.1)]

/-- A call leaves the slots below its own alone and puts its counter into its
own. -/
theorem slot?_of_called {target : Word}
    (called : machine.step.answer = .executed (.call target)) :
    machine.step.machine.state.stack.slot? machine.depth =
        some machine.state.counter ∧
      ∀ index < machine.depth,
        machine.step.machine.state.stack.slot? index =
          machine.state.stack.slot? index := by
  have room := (depth_of_called called).1
  constructor
  · rw [stack_step, called]
    change (machine.state.stack.push _).slot? _ = _
    rw [CallStack.slot?_push, if_pos ⟨rfl, room⟩]
  · intro index below
    exact slot?_step_of_deeper below (Nat.le_refl index)

end Slots

/-! ### Returning -/

section Returning

variable {machine : Machine} {level : Nat} {address : Word}

theorem continuation_leave_of_slot? (deep : machine.depth = level + 1)
    (top : machine.state.stack.slot? level = some address) :
    Instruction.leave.continuation machine.state = address.advance 2 := by
  have same : machine.state.stack.top = level := by
    rw [depth] at deep
    rw [CallStack.top]
    omega
  rw [Instruction.continuation_leave, Instruction.returnTarget, same, top]

/-- A return goes on after the call whose counter is on top. -/
theorem counter_of_returned
    (returned : machine.step.answer = .executed .leave)
    (deep : machine.depth = level + 1)
    (top : machine.state.stack.slot? level = some address) :
    machine.step.machine.state.counter.toNat = address.toNat + 2 := by
  obtain ⟨word, counter, within, fetched, decoded, accepted, continues, after⟩ :=
    execution_of_executed returned
  rw [continuation_leave_of_slot? deep top] at continues
  rw [after]
  exact Word.toNat_of_advance continues

/-- A return is executed if the slot on top holds the counter of a call. -/
theorem returned_of_decoded {word : Word}
    (fetched : machine.state.fetch = .ok word)
    (decoded : Instruction.decode word = some .leave)
    (deep : machine.depth = level + 1)
    (top : machine.state.stack.slot? level = some address)
    (low : address.toNat ≤ 0xFFE) :
    machine.step.answer = .executed .leave := by
  have filled : machine.state.stack.depth ≠ 0 := by
    intro zero
    rw [depth, zero] at deep
    cases deep
  have accepted : Instruction.leave.fault? machine.state = none := by
    rw [Instruction.fault?, if_neg filled]
  obtain ⟨next, advanced, _⟩ : ∃ next, address.advance 2 = .ok next ∧
      next.toNat ≤ 0x1000 :=
    Word.exists_advance_eq_ok (by omega) (by decide)
  have continues := (continuation_leave_of_slot? deep top).trans advanced
  exact executed_of_continuation fetched decoded accepted continues rfl

end Returning

/-! ### The balance of calls and returns -/

section Balance

variable (machine : Machine) {operation : Operation}

theorem depth_step_balance :
    machine.step.machine.depth +
        (Answer.step machine.step.answer).executed?.toList.count .leave =
      machine.depth +
        (Answer.step machine.step.answer).executed?.toList.countP
          Instruction.isCall := by
  cases outcome : machine.step.answer with
  | executed instruction =>
      cases instruction with
      | call target => exact (depth_of_called outcome).2
      | leave => exact depth_of_returned outcome
      | _ =>
          rw [depth, stack_step, outcome]
          rfl
  | _ =>
      rw [depth, stack_step, outcome]
      rfl

theorem depth_perform_balance (unreset : operation ≠ .reset) :
    (machine.perform operation).machine.depth +
        (machine.perform operation).answer.executed?.toList.count .leave =
      machine.depth +
        (machine.perform operation).answer.executed?.toList.countP
          Instruction.isCall := by
  by_cases stepped : operation = .step
  · rw [stepped]
    exact machine.depth_step_balance
  · rw [executed?_perform machine stepped, depth,
      stack_perform stepped unreset]
    rfl

/-- Without a reset the depth grows by the calls and shrinks by the returns. -/
theorem depth_run_balance {operations : List Operation}
    (unreset : Operation.reset ∉ operations) :
    (machine.run operations).depth +
        (machine.executions operations).count .leave =
      machine.depth +
        (machine.executions operations).countP Instruction.isCall := by
  induction operations generalizing machine with
  | nil => rfl
  | cons operation rest ih =>
      rw [List.mem_cons, not_or] at unreset
      have first := machine.depth_perform_balance (Ne.symm unreset.1)
      have later := ih (machine.perform operation).machine unreset.2
      rw [run_cons, executions_cons, List.count_append, List.countP_append]
      omega

theorem depth_reset : machine.reset.machine.depth = 0 :=
  rfl

theorem depth_new (random : RandomSource) : (new random).depth = 0 := rfl

end Balance

/-- Calls nest.  While the stack stays deeper than it was at a call, the slots
up to that of the call keep their addresses, and when it is one deeper again, a
return is executed and goes on right after the call.  Since a machine was new
or was last reset, the depth is the number of calls executed less that of
returns. -/
theorem calls_nest_and_balance :
    (∀ (machine : Machine) (target : Word),
      machine.step.answer = .executed (.call target) →
        machine.depth < stackCapacity ∧
          machine.step.machine.depth = machine.depth + 1 ∧
          ∀ operations, Operation.reset ∉ operations →
            machine.step.machine.StaysDeeper machine.depth operations →
              let current := machine.step.machine.run operations
              current.state.stack.slot? machine.depth =
                  some machine.state.counter ∧
                (∀ index < machine.depth,
                  current.state.stack.slot? index =
                    machine.state.stack.slot? index) ∧
                (current.depth = machine.depth + 1 →
                  (∀ word, current.state.fetch = .ok word →
                    Instruction.decode word = some .leave →
                      current.step.answer = .executed .leave) ∧
                    (current.step.answer = .executed .leave →
                      current.step.machine.depth = machine.depth ∧
                        current.step.machine.state.counter.toNat =
                          machine.state.counter.toNat + 2))) ∧
      ∀ (random : RandomSource) (before after : List Operation),
        (before = [] ∨ ∃ earlier, before = earlier ++ [.reset]) →
          Operation.reset ∉ after →
            let start := (new random).run before
            (start.run after).depth + (start.executions after).count .leave =
              (start.executions after).countP Instruction.isCall := by
  refine ⟨?nest, ?balance⟩
  case nest =>
    intro machine target called
    obtain ⟨room, deeper⟩ := depth_of_called called
    refine ⟨room, deeper, ?_⟩
    intro operations unreset stays current
    obtain ⟨own, below⟩ := slot?_of_called called
    have kept : ∀ index ≤ machine.depth,
        current.state.stack.slot? index =
          machine.step.machine.state.stack.slot? index :=
      fun _ low => slot?_run_of_staysDeeper unreset stays low
    have top : current.state.stack.slot? machine.depth =
        some machine.state.counter :=
      (kept _ (Nat.le_refl _)).trans own
    refine ⟨top, ?_, ?_⟩
    · intro index low
      exact (kept index (Nat.le_of_lt low)).trans (below index low)
    · intro again
      refine ⟨?_, ?_⟩
      · intro word fetched decoded
        obtain ⟨_, _, low, _⟩ := execution_of_executed called
        exact returned_of_decoded fetched decoded again top low
      · intro returned
        refine ⟨?_, counter_of_returned returned again top⟩
        have shallower := depth_of_returned returned
        omega
  case balance =>
    intro random before after first unreset start
    have empty : start.depth = 0 := by
      obtain rfl | ⟨earlier, rfl⟩ := first
      · exact depth_new random
      · simp only [start, run_append]
        exact depth_reset _
    have balance := start.depth_run_balance unreset
    omega

/-- A call to a call: the outer return finds its way back past the inner
pair. -/
example :
    let program : List UInt8 :=
      [0x22, 0x04, 0x12, 0x02, 0x22, 0x08, 0x00, 0xEE, 0x00, 0xEE]
    let machine := (new (RandomSource.ofSeed 0)).run [.load program]
    let inner := [.step, .tick, .step]
    machine.step.answer = .executed (.call 0x204) ∧
      machine.step.machine.StaysDeeper machine.depth inner ∧
      (machine.step.machine.run inner).depth = machine.depth + 1 ∧
      (machine.step.machine.run inner).step.machine.state.counter = 0x202 := by
  decide +kernel

end Machine

end ChipEight
