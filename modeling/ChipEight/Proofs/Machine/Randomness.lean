import ChipEight.Proofs.Instruction.Changes
import ChipEight.Proofs.Instruction.Continuation
import ChipEight.Proofs.Machine.Reachability
import ChipEight.Proofs.Machine.Stepping
import ChipEight.Proofs.Machine.Transcript

/-!
# Where random bytes go

One byte is drawn for every random instruction that is executed, and none for
anything else.  So the instructions of a whole life get the bytes of the source
one after another, whatever happens in between, and machines that differ in
nothing but the source cannot be told apart before such an instruction.
-/

namespace ChipEight

namespace Instruction

theorem byteFrom_of_not_drawsRandom {instruction : Instruction}
    (idle : instruction.drawsRandom = false) (source : RandomSource) :
    instruction.byteFrom source = 0 := by
  rw [byteFrom, idle]
  rfl

theorem sourceAfter_of_not_drawsRandom {instruction : Instruction}
    (idle : instruction.drawsRandom = false) (source : RandomSource) :
    instruction.sourceAfter source = source := by
  rw [sourceAfter, idle]
  rfl

/-- A random instruction always finds a place to continue. -/
theorem not_drawsRandom_of_stops {instruction : Instruction} {state : State}
    {cause : Crash} (within : state.counter.toNat ≤ 0xFFE)
    (stops : instruction.continuation state = .error cause) :
    instruction.drawsRandom = false := by
  cases instruction with
  | random x mask =>
      have fits : state.counter.toNat + 2 < 65536 := by omega
      rw [continuation_of_isStraight rfl, Word.advance_of_lt fits] at stops
      cases stops
  | _ => rfl

end Instruction

namespace Machine

/-- Whether an answer tells of a random instruction that was executed. -/
def Answer.drawsRandom (answer : Answer) : Bool :=
  answer.executed?.any Instruction.drawsRandom

theorem drawsRandom_outcomeOf (instruction : Instruction)
    (before after : State) :
    (Answer.step (outcomeOf instruction before after)).drawsRandom =
      instruction.drawsRandom :=
  apply_outcomeOf (fun outcome => (Answer.step outcome).drawsRandom)
    (fun _ => rfl) instruction before after

/-! ### One byte for each random instruction -/

theorem random_step (machine : Machine) :
    machine.step.machine.random =
      if (Answer.step machine.step.answer).drawsRandom then
        machine.random.next
      else
        machine.random := by
  have rule := machine.stepRule
  generalize machine.step = response at rule ⊢
  cases rule with
  | unfetchable past => rfl
  | unknown within fetched undecoded => rfl
  | refused within fetched decoded refusal => rfl
  | ran within fetched decoded accepted continues produced =>
      simp only [succeed, drawsRandom_outcomeOf]
      rfl
  | crashed within fetched decoded accepted stops =>
      have idle := Instruction.not_drawsRandom_of_stops within stops
      exact Instruction.sourceAfter_of_not_drawsRandom idle machine.random

/-- The source goes on by one place if a random instruction was executed, and
stays where it is otherwise. -/
theorem random_perform (machine : Machine) (operation : Operation) :
    (machine.perform operation).machine.random =
      if (machine.perform operation).answer.drawsRandom then
        machine.random.next
      else
        machine.random := by
  by_cases stepped : operation = .step
  · subst stepped
    exact machine.random_step
  · have silent : (machine.perform operation).answer.drawsRandom = false := by
      rw [Answer.drawsRandom, machine.executed?_perform stepped]
      rfl
    rw [silent]
    by_cases reset : operation = .reset
    · subst reset
      rfl
    · obtain ⟨memory, timers, redraw, keypad, same⟩ :=
        machine.exists_perform_eq stepped reset
      rw [same]
      rfl

theorem countP_executed? (answer : Answer) :
    answer.executed?.toList.countP Instruction.drawsRandom =
      if answer.drawsRandom then 1 else 0 := by
  rw [Answer.drawsRandom]
  cases answer.executed? with
  | none => rfl
  | some instruction =>
      simp only [Option.toList_some, List.countP_singleton, Option.any_some]

/-- After a run the source has gone on by one place for each random instruction
that was executed in it, resets or not. -/
theorem random_run (machine : Machine) (operations : List Operation) :
    (machine.run operations).random =
      { machine.random with
        drawn := machine.random.drawn +
          (machine.executions operations).countP Instruction.drawsRandom } := by
  induction operations generalizing machine with
  | nil => rfl
  | cons operation rest ih =>
      have first := machine.random_perform operation
      rw [run_cons, ih, executions_cons, List.countP_append, countP_executed?,
        first]
      split
      case isTrue drew =>
        simp only [RandomSource.next]
        congr 1
        omega
      case isFalse idle => rw [Nat.zero_add]

theorem register_of_random {machine : Machine} {x mask : UInt8}
    (executed : machine.step.answer = .executed (.random x mask)) :
    machine.step.machine.state.register x = machine.random.byte &&& mask := by
  obtain ⟨word, counter, _, _, _, _, _, after⟩ :=
    execution_of_executed executed
  have named := named_lt_of_executed executed x (.head _)
  rw [after]
  exact machine.state.register_setRegister_self named _

/-! ### Machines with different sources -/

def withRandom (machine : Machine) (source : RandomSource) : Machine :=
  { machine with random := source }

/-- The same response of a machine with another random source. -/
def Response.withRandom {Answer : Type} (response : Response Answer)
    (source : RandomSource) : Response Answer :=
  { response with machine := response.machine.withRandom source }

section Sources

variable {machine : Machine} (source : RandomSource)

theorem step_withRandom
    (idle : (Answer.step machine.step.answer).drawsRandom = false) :
    (machine.withRandom source).step = machine.step.withRandom source := by
  have rule := machine.stepRule
  generalize machine.step = response at rule idle ⊢
  cases rule with
  | unfetchable past =>
      have other : (machine.withRandom source).StepRule _ := .unfetchable past
      exact other.eq_step.symm
  | unknown within fetched undecoded =>
      have other : (machine.withRandom source).StepRule _ :=
        .unknown within fetched undecoded
      exact other.eq_step.symm
  | refused within fetched decoded refusal =>
      have other : (machine.withRandom source).StepRule _ :=
        .refused within fetched decoded refusal
      exact other.eq_step.symm
  | @ran word instruction counter within fetched decoded accepted continues
      next produced =>
      simp only [succeed, drawsRandom_outcomeOf] at idle
      have same : next =
          { instruction.effect (instruction.byteFrom source)
              machine.state with counter := counter } := by
        rw [produced, Instruction.byteFrom_of_not_drawsRandom idle,
          Instruction.byteFrom_of_not_drawsRandom idle]
      have other := @StepRule.ran (machine.withRandom source) word instruction
        counter within fetched decoded accepted continues next same
      rw [← other.eq_step]
      simp only [withRandom,
        Instruction.sourceAfter_of_not_drawsRandom idle source]
      rfl
  | @crashed word instruction cause within fetched decoded accepted stops =>
      have unused := Instruction.not_drawsRandom_of_stops within stops
      have other : (machine.withRandom source).StepRule _ :=
        .crashed within fetched decoded accepted stops
      rw [← other.eq_step]
      simp only [withRandom,
        Instruction.sourceAfter_of_not_drawsRandom unused source]
      rfl

theorem load_withRandom (program : List UInt8) :
    (machine.withRandom source).load program =
      (machine.load program).withRandom source := by
  rw [load, load]
  split <;> rfl

theorem perform_withRandom {operation : Operation}
    (idle : (machine.perform operation).answer.drawsRandom = false) :
    (machine.withRandom source).perform operation =
      (machine.perform operation).withRandom source := by
  cases operation with
  | step =>
      have same := step_withRandom source idle
      simp only [perform, same]
      rfl
  | load program =>
      simp only [perform, load_withRandom]
      rfl
  | loadFrom reader =>
      simp only [perform, loadFrom]
      split
      · rw [load_withRandom]
        rfl
      · rfl
  | setKey key down =>
      simp only [perform, setKey]
      split <;> rfl
  | _ => rfl

/-- Until a random instruction is executed, another source makes no difference
to what a machine does, answers and reports. -/
theorem responses_withRandom {operations : List Operation}
    (idle : ∀ instruction ∈ machine.executions operations,
      instruction.drawsRandom = false) :
    (machine.withRandom source).responses operations =
      (machine.responses operations).map fun response =>
        response.withRandom source := by
  induction operations generalizing machine with
  | nil => rfl
  | cons operation rest ih =>
      rw [executions_cons, List.forall_mem_append] at idle
      have first : (machine.perform operation).answer.drawsRandom = false := by
        rw [Answer.drawsRandom, Option.any_eq_false]
        intro instruction executed
        exact idle.1 instruction (Option.mem_toList.mpr executed)
      have same := perform_withRandom source first
      simp only [responses, List.map_cons, same]
      exact congrArg _ (ih idle.2)

end Sources

/-- Whatever source a machine was made with, the random instruction that is
executed after a number of others stores the byte so many places on in the
sequence of the source under its mask; nothing else draws a byte; and as long as
no random instruction is executed, machines that differ in their sources only
respond to the same operations alike. -/
theorem random_bytes_in_order :
    (∀ (source : RandomSource) before x mask,
      let machine := (new source).run before
      let place :=
        ((new source).executions before).countP Instruction.drawsRandom
      machine.step.answer = .executed (.random x mask) →
        machine.step.machine.state.register x =
          source.byteAt (source.drawn + place) &&& mask) ∧
    (∀ (machine : Machine) (operation : Operation),
      (machine.perform operation).machine.random =
        if (machine.perform operation).answer.drawsRandom then
          machine.random.next
        else
          machine.random) ∧
    ∀ (machine : Machine) (source : RandomSource)
      (operations : List Operation),
      (∀ instruction ∈ machine.executions operations,
        instruction.drawsRandom = false) →
        (machine.withRandom source).responses operations =
          (machine.responses operations).map fun response =>
            response.withRandom source := by
  refine ⟨?bytes, random_perform,
    fun machine source operations idle => responses_withRandom source idle⟩
  case bytes =>
    intro source before x mask machine place executed
    have reached : machine.random.byte =
        source.byteAt (source.drawn + place) := by
      have drawn := random_run (new source) before
      simp only [machine, RandomSource.byte, drawn]
      rfl
    rw [register_of_random executed, reached]

/-- The second random instruction after a seed gets the second byte of its
sequence, a reset between or not. -/
example :
    let program : Operation := .load [0xC1, 0x0F]
    let machine := (ofSeed 0).run [program, .step, .reset, program]
    machine.step.answer = .executed (.random 1 0x0F) ∧
      machine.step.machine.state.register 1 =
        (RandomSource.ofSeed 0).byteAt 1 &&& 0x0F := by
  decide +kernel

end Machine

end ChipEight
