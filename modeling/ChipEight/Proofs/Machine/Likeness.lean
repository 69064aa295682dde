import ChipEight.Proofs.Machine.Randomness

/-!
# Machines that cannot be told apart

What an owner gets to see of an operation is the state after it, the answer and
the records.  Two machines with the same state and the same remembered fault
whose sources deliver the same bytes from now on are alike: every operation
shows the same of both and leaves them alike, so that no sequence of operations
ever tells them apart.

A reset leaves nothing of a machine but its source.  So a machine that is reset
is like a new one, whatever it went through.
-/

namespace ChipEight

namespace RandomSource

/-- Two sources deliver the same bytes from now on, however many each of them
has delivered already. -/
def Agrees (first second : RandomSource) : Prop :=
  ∀ distance, first.byteAt (first.drawn + distance) =
    second.byteAt (second.drawn + distance)

variable {first second : RandomSource}

theorem Agrees.byte_eq (agrees : first.Agrees second) :
    first.byte = second.byte :=
  agrees 0

theorem Agrees.next (agrees : first.Agrees second) :
    first.next.Agrees second.next := by
  intro distance
  have later := agrees (1 + distance)
  rw [← Nat.add_assoc, ← Nat.add_assoc] at later
  exact later

end RandomSource

namespace Machine

/-- What an owner gets to see of an operation.  A record has its severity and
its text. -/
structure Observation where
  state : State
  answer : Answer
  records : List Record

def Response.observation (response : Response Answer) : Observation :=
  { state := response.machine.state,
    answer := response.answer,
    records := response.records }

/-- What an owner gets to see of a run, operation by operation. -/
def observations (machine : Machine) (operations : List Operation) :
    List Observation :=
  (machine.responses operations).map Response.observation

/-- Two machines are alike but for how far their sources have got. -/
structure Alike (first second : Machine) : Prop where
  state_eq : first.state = second.state
  lastFault_eq : first.lastFault = second.lastFault
  random_agrees : first.random.Agrees second.random

variable {machine first second : Machine} {source : RandomSource}

theorem Alike.exists_eq_withRandom (alike : first.Alike second) :
    ∃ source, first.random.Agrees source ∧
      second = first.withRandom source := by
  obtain ⟨state, random, lastFault⟩ := first
  obtain ⟨_, source, _⟩ := second
  obtain ⟨rfl, rfl, agrees⟩ := alike
  exact ⟨source, agrees, rfl⟩

/-- A random instruction does the same with another source that delivers the
same byte. -/
theorem step_withRandom_of_byte_eq
    (draws : (Answer.step machine.step.answer).drawsRandom = true)
    (same : machine.random.byte = source.byte) :
    (machine.withRandom source).step =
      machine.step.withRandom source.next := by
  have rule := machine.stepRule
  generalize machine.step = response at rule draws ⊢
  cases rule with
  | unfetchable past => cases draws
  | unknown within fetched undecoded => cases draws
  | refused within fetched decoded refusal => cases draws
  | @ran word instruction counter within fetched decoded accepted continues
      next produced =>
      simp only [succeed, drawsRandom_outcomeOf] at draws
      have byte : instruction.byteFrom machine.random =
          instruction.byteFrom source := by
        simp only [Instruction.byteFrom, draws, if_true, same]
      have after : instruction.sourceAfter source = source.next := by
        simp only [Instruction.sourceAfter, draws, if_true]
      rw [byte] at produced
      have other := @StepRule.ran (machine.withRandom source) word instruction
        counter within fetched decoded accepted continues next produced
      rw [← other.eq_step]
      simp only [withRandom, after]
      rfl
  | crashed within fetched decoded accepted stops => cases draws

theorem not_drawsRandom_of_unstepped {operation : Operation}
    (unstepped : operation ≠ .step) :
    (machine.perform operation).answer.drawsRandom = false := by
  rw [Answer.drawsRandom, executed?_perform machine unstepped]
  rfl

/-- An operation shows the same of machines that are alike, and they are still
alike after it. -/
theorem Alike.perform (alike : first.Alike second) (operation : Operation) :
    (first.perform operation).machine.Alike
        (second.perform operation).machine ∧
      (first.perform operation).observation =
        (second.perform operation).observation := by
  obtain ⟨source, agrees, rfl⟩ := alike.exists_eq_withRandom
  have random := first.random_perform operation
  cases draws : (first.perform operation).answer.drawsRandom with
  | false =>
      rw [perform_withRandom source draws]
      rw [draws, if_neg Bool.false_ne_true] at random
      refine ⟨⟨rfl, rfl, ?_⟩, rfl⟩
      rw [random]
      exact agrees
  | true =>
      have stepped : operation = .step := by
        by_contra unstepped
        cases draws.symm.trans (not_drawsRandom_of_unstepped unstepped)
      subst stepped
      have same := step_withRandom_of_byte_eq draws agrees.byte_eq
      rw [draws, if_pos rfl] at random
      simp only [Machine.perform, Response.map, same] at random ⊢
      refine ⟨⟨rfl, rfl, ?_⟩, rfl⟩
      rw [random]
      exact agrees.next

/-- No operations tell machines apart that are alike. -/
theorem Alike.observations_eq (alike : first.Alike second)
    (operations : List Operation) :
    first.observations operations = second.observations operations := by
  induction operations generalizing first second with
  | nil => rfl
  | cons operation rest ih =>
      obtain ⟨still, shown⟩ := alike.perform operation
      have later := ih still
      simp only [observations, responses, List.map_cons] at later ⊢
      rw [shown, later]

/-- A machine that is reset is like a new one with a source that stands where
its own does. -/
theorem alike_of_reset (agrees : machine.random.Agrees source) :
    machine.reset.machine.Alike (new source) :=
  ⟨rfl, rfl, agrees⟩

end Machine

end ChipEight
