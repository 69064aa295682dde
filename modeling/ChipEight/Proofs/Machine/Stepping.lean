import ChipEight.Machine.Step
import ChipEight.Proofs.Instruction.Decoding
import ChipEight.Proofs.Memory.Access

/-!
# What a step can do

A step ends in one of five ways, and `StepRule` has one rule for each: the
word at the counter cannot be fetched, it is no instruction, the instruction is
refused, it runs, or it crashes.  Everything that is proved about steps goes
through these rules.

The main result is that recovery from a fault changes the counter at most, and
that a step without a fault arrives at exactly the state that the instruction
produced.
-/

namespace ChipEight

namespace Instruction

def byteFrom (instruction : Instruction) (source : RandomSource) : UInt8 :=
  if instruction.drawsRandom then source.byte else 0

def sourceAfter (instruction : Instruction) (source : RandomSource) :
    RandomSource :=
  if instruction.drawsRandom then source.next else source

theorem executeDrawing_eq (instruction : Instruction) (source : RandomSource)
    (state : State) :
    instruction.executeDrawing source state =
      (instruction.execute (instruction.byteFrom source) state,
        instruction.sourceAfter source) := by
  cases draws : instruction.drawsRandom with
  | true => simp [executeDrawing, byteFrom, sourceAfter, draws]
  | false => simp [executeDrawing, byteFrom, sourceAfter, draws]

/-- An instruction that can be refused uses no random byte. -/
theorem sourceAfter_of_refused {instruction : Instruction} {state : State}
    {fault : Fault} (refused : instruction.fault? state = some fault)
    (source : RandomSource) : instruction.sourceAfter source = source := by
  cases instruction with
  | random x mask => simp [fault?] at refused
  | _ => rfl

theorem fault?_ne_unknownOpcode (instruction : Instruction) (state : State)
    (word counter : Word) :
    instruction.fault? state ≠ some (.unknownOpcode word counter) := by
  have readable : ∀ span : Span,
      span.readFault? ≠ some (.unknownOpcode word counter) := by
    intro span
    simp [Span.readFault?_eq_some_iff]
  have writable : ∀ span : Span,
      span.writeFault? ≠ some (.unknownOpcode word counter) := by
    intro span
    have reading := readable span
    rw [Span.writeFault?]
    cases refusal : span.readFault? with
    | none => simp
    | some fault => rwa [refusal] at reading
  cases instruction with
  | leave => simp [fault?]
  | call target => simp [fault?]
  | draw x y height => exact readable _
  | loadRegisters x => exact readable _
  | storeDecimal x => exact writable _
  | storeRegisters x => exact writable _
  | _ => simp [fault?]

end Instruction

namespace Machine

/-- The ways a step can end. -/
inductive StepRule (machine : Machine) : Response Outcome → Prop
  | unfetchable (past : 0xFFE < machine.state.counter.toNat) :
      StepRule machine
        (machine.recover machine.state.counter
          (.outOfRange (max machine.state.counter 0x1000)) [])
  | unknown {word : Word} (within : machine.state.counter.toNat ≤ 0xFFE)
      (fetched : machine.state.fetch = .ok word)
      (undecoded : Instruction.decode word = none) :
      StepRule machine
        (machine.recover (machine.state.counter + 2)
          (.unknownOpcode word machine.state.counter) [])
  | refused {word : Word} {instruction : Instruction} {fault : Fault}
      (within : machine.state.counter.toNat ≤ 0xFFE)
      (fetched : machine.state.fetch = .ok word)
      (decoded : Instruction.decode word = some instruction)
      (refusal : instruction.fault? machine.state = some fault) :
      StepRule machine
        (machine.recover (machine.state.counter + 2) fault
          [.decoded word instruction machine.state.dump])
  | ran {word : Word} {instruction : Instruction} {counter : Word}
      (within : machine.state.counter.toNat ≤ 0xFFE)
      (fetched : machine.state.fetch = .ok word)
      (decoded : Instruction.decode word = some instruction)
      (accepted : instruction.fault? machine.state = none)
      (continues : instruction.continuation machine.state = .ok counter)
      {next : State}
      (produced : next =
        { instruction.effect (instruction.byteFrom machine.random)
            machine.state with counter := counter }) :
      StepRule machine
        (machine.succeed next (instruction.sourceAfter machine.random)
          (outcomeOf instruction machine.state next)
          [.decoded word instruction machine.state.dump])
  | crashed {word : Word} {instruction : Instruction} {cause : Crash}
      (within : machine.state.counter.toNat ≤ 0xFFE)
      (fetched : machine.state.fetch = .ok word)
      (decoded : Instruction.decode word = some instruction)
      (accepted : instruction.fault? machine.state = none)
      (stops : instruction.continuation machine.state = .error cause) :
      StepRule machine
        ({ machine with
            random := instruction.sourceAfter machine.random }.crash cause
          [.decoded word instruction machine.state.dump])

theorem outcomeOf_eq (instruction : Instruction) (before after : State) :
    outcomeOf instruction before after = .awaiting ∨
      outcomeOf instruction before after = .executed instruction := by
  rw [outcomeOf]
  split
  · exact .inl rfl
  · exact .inr rfl

/-- What does not tell a wait from a wait that got its key does not depend on
how an instruction that ran came out. -/
theorem apply_outcomeOf {Result : Type} (view : Outcome → Result)
    (waits : ∀ x, view .awaiting = view (.executed (.awaitKey x)))
    (instruction : Instruction) (before after : State) :
    view (outcomeOf instruction before after) =
      view (.executed instruction) := by
  rw [outcomeOf]
  split
  case isTrue awaiting =>
    cases instruction with
    | awaitKey x => exact waits x
    | _ => simp [Instruction.awaitsKey] at awaiting
  case isFalse => rfl

/-- Passing over a word that could be fetched never overflows. -/
theorem recoverPast_of_le {machine : Machine}
    (within : machine.state.counter.toNat ≤ 0xFFE) (fault : Fault)
    (records : List Record) :
    machine.recoverPast fault records =
      machine.recover (machine.state.counter + 2) fault records := by
  have fits : machine.state.counter.toNat + 2 < 65536 := by omega
  simp [recoverPast, Word.advance, fits]

theorem stepRule (machine : Machine) : machine.StepRule machine.step := by
  cases fetched : machine.state.fetch with
  | error fault =>
      obtain ⟨past, rfl⟩ := (machine.state.fetch_eq_error_iff fault).mp fetched
      simp only [step, fetched]
      exact .unfetchable past
  | ok word =>
      have within := ((machine.state.fetch_eq_ok_iff word).mp fetched).1
      cases decoded : Instruction.decode word with
      | none =>
          simp only [step, fetched, decoded, recoverPast_of_le within]
          exact .unknown within fetched decoded
      | some instruction =>
          have encodable := Instruction.encodable_of_decode decoded
          simp only [step, fetched, decoded, stepDecoded,
            Instruction.executeDrawing_eq,
            Instruction.execute_of_encodable encodable]
          cases refusal : instruction.fault? machine.state with
          | some fault =>
              have source :=
                Instruction.sourceAfter_of_refused refusal machine.random
              simp only [source, recoverPast_of_le within]
              exact .refused within fetched decoded refusal
          | none =>
              cases continues : instruction.continuation machine.state with
              | ok counter =>
                  exact .ran within fetched decoded refusal continues rfl
              | error cause =>
                  exact .crashed within fetched decoded refusal continues

/-- A rule whose conditions hold gives the response of the step. -/
theorem StepRule.eq_step {machine : Machine} {response : Response Outcome}
    (rule : machine.StepRule response) : response = machine.step := by
  cases rule with
  | unfetchable past =>
      have fetched := (machine.state.fetch_eq_error_iff _).mpr ⟨past, rfl⟩
      simp only [step, fetched]
  | unknown within fetched undecoded =>
      simp only [step, fetched, undecoded, recoverPast_of_le within]
  | refused within fetched decoded refusal =>
      have encodable := Instruction.encodable_of_decode decoded
      have source := Instruction.sourceAfter_of_refused refusal machine.random
      simp only [step, fetched, decoded, stepDecoded,
        Instruction.executeDrawing_eq,
        Instruction.execute_of_encodable encodable, refusal, source,
        recoverPast_of_le within]
  | ran within fetched decoded accepted continues produced =>
      have encodable := Instruction.encodable_of_decode decoded
      simp only [step, fetched, decoded, stepDecoded,
        Instruction.executeDrawing_eq,
        Instruction.execute_of_encodable encodable, accepted, continues,
        produced]
  | crashed within fetched decoded accepted stops =>
      have encodable := Instruction.encodable_of_decode decoded
      simp only [step, fetched, decoded, stepDecoded,
        Instruction.executeDrawing_eq,
        Instruction.execute_of_encodable encodable, accepted, stops]

/-- A step that executed an instruction fetched and decoded it, and arrived at
its effect and its continuation. -/
theorem execution_of_executed {machine : Machine} {instruction : Instruction}
    (executed : machine.step.answer = .executed instruction) :
    ∃ word counter, machine.state.counter.toNat ≤ 0xFFE ∧
      machine.state.fetch = .ok word ∧
      Instruction.decode word = some instruction ∧
      instruction.fault? machine.state = none ∧
      instruction.continuation machine.state = .ok counter ∧
      machine.step.machine.state =
        { instruction.effect (instruction.byteFrom machine.random)
            machine.state with counter := counter } := by
  have rule := machine.stepRule
  generalize machine.step = response at rule executed ⊢
  cases rule with
  | unfetchable past => cases executed
  | unknown within fetched undecoded => cases executed
  | refused within fetched decoded refusal => cases executed
  | @ran word found counter within fetched decoded accepted continues next
      produced =>
      rcases outcomeOf_eq found machine.state next with waits | runs
      · cases waits.symm.trans executed
      · cases runs.symm.trans executed
        exact ⟨word, counter, within, fetched, decoded, accepted, continues,
          produced⟩
  | crashed within fetched decoded accepted stops => cases executed

/-- An instruction that was executed names existing registers, for it was
decoded from a word. -/
theorem named_lt_of_executed {machine : Machine} {instruction : Instruction}
    (executed : machine.step.answer = .executed instruction) :
    ∀ name ∈ instruction.namedRegisters, name.toNat < registerCount := by
  obtain ⟨word, counter, _, _, decoded, _⟩ := execution_of_executed executed
  exact Instruction.named_lt_of_encodable
    (Instruction.encodable_of_decode decoded)

/-- An instruction that is not refused and finds a place to continue is
executed, unless it waits. -/
theorem executed_of_continuation {machine : Machine} {word counter : Word}
    {instruction : Instruction} (fetched : machine.state.fetch = .ok word)
    (decoded : Instruction.decode word = some instruction)
    (accepted : instruction.fault? machine.state = none)
    (continues : instruction.continuation machine.state = .ok counter)
    (prompt : instruction.awaitsKey = false) :
    machine.step.answer = .executed instruction := by
  have encodable := Instruction.encodable_of_decode decoded
  simp only [step, fetched, decoded, stepDecoded,
    Instruction.executeDrawing_eq, Instruction.execute_of_encodable encodable,
    accepted, continues, succeed, outcomeOf, prompt, Bool.false_and,
    Bool.false_eq_true, if_false]

/-- A step that ends in a fault is a recovery: from a failed fetch where the
counter is, from any other fault past the word. -/
theorem recovery_of_faulted {machine : Machine} {fault : Fault}
    (faulted : machine.step.answer = .faulted fault) :
    ∃ counter records, machine.step = machine.recover counter fault records ∧
      ((0xFFE < machine.state.counter.toNat ∧
          fault = .outOfRange (max machine.state.counter 0x1000) ∧
          counter = machine.state.counter) ∨
        ∃ word, machine.state.fetch = .ok word ∧
          machine.state.counter.toNat ≤ 0xFFE ∧
          counter = machine.state.counter + 2 ∧
          ((Instruction.decode word = none ∧
              fault = .unknownOpcode word machine.state.counter) ∨
            ∃ instruction, Instruction.decode word = some instruction ∧
              instruction.fault? machine.state = some fault)) := by
  have rule := machine.stepRule
  generalize machine.step = response at rule faulted ⊢
  cases rule with
  | unfetchable past =>
      cases faulted
      exact ⟨_, _, rfl, .inl ⟨past, rfl, rfl⟩⟩
  | unknown within fetched undecoded =>
      cases faulted
      exact ⟨_, _, rfl,
        .inr ⟨_, fetched, within, rfl, .inl ⟨undecoded, rfl⟩⟩⟩
  | refused within fetched decoded refusal =>
      cases faulted
      exact ⟨_, _, rfl,
        .inr ⟨_, fetched, within, rfl, .inr ⟨_, decoded, refusal⟩⟩⟩
  | @ran word instruction counter within fetched decoded accepted continues
      next produced =>
      rcases outcomeOf_eq instruction machine.state next with waits | runs
      · cases waits.symm.trans faulted
      · cases runs.symm.trans faulted
  | crashed within fetched decoded accepted stops => cases faulted

/-- Whether a step did what its instruction asks for. -/
def Outcome.completes : Outcome → Bool
  | executed _ => true
  | awaiting => true
  | faulted _ => false
  | crashed _ => false

/-- A step that neither faults nor crashes takes over what its instruction
produced, and names that instruction unless it waits. -/
theorem production_of_completes {machine : Machine}
    (completes : machine.step.answer.completes = true) :
    ∃ word instruction, machine.state.fetch = .ok word ∧
      Instruction.decode word = some instruction ∧
      instruction.executeDrawing machine.random machine.state =
        (.ok machine.step.machine.state, machine.step.machine.random) ∧
      (machine.step.answer = .awaiting ∨
        machine.step.answer = .executed instruction) := by
  have rule := machine.stepRule
  generalize machine.step = response at rule completes ⊢
  cases rule with
  | unfetchable past => cases completes
  | unknown within fetched undecoded => cases completes
  | refused within fetched decoded refusal => cases completes
  | ran within fetched decoded accepted continues produced =>
      refine ⟨_, _, fetched, decoded, ?_, ?_⟩
      · rw [Instruction.executeDrawing_eq,
          Instruction.execute_of_encodable
            (Instruction.encodable_of_decode decoded),
          accepted, continues, produced]
        rfl
      · exact outcomeOf_eq _ _ _
  | crashed within fetched decoded accepted stops => cases completes

theorem execution_of_refused {instruction : Instruction} {state : State}
    {fault : Fault} (refused : instruction.fault? state = some fault)
    (source : RandomSource) :
    (instruction.executeDrawing source state).1 = .error (.fault fault) := by
  rw [Instruction.executeDrawing_eq, Instruction.execute, refused]

/-- Recovery is atomic and steps are exact.  A fault leaves the state as it was
but for the counter, which stays only where nothing can be fetched, and draws
no random byte; it is an unknown word exactly if the word is no instruction,
and otherwise the fault that executing the instruction gives.  A step that
executes or waits arrives at the state that executing gives. -/
theorem step_recovers_or_produces (machine : Machine) :
    (∀ fault, machine.step.answer = .faulted fault →
      machine.step.machine.random = machine.random ∧
        ((0xFFE < machine.state.counter.toNat ∧
            machine.state.fetch = .error fault ∧
            fault = .outOfRange (max machine.state.counter 0x1000) ∧
            machine.step.machine.state = machine.state) ∨
          ∃ word, machine.state.fetch = .ok word ∧
            machine.state.counter.toNat ≤ 0xFFE ∧
            machine.step.machine.state =
              { machine.state with counter := machine.state.counter + 2 } ∧
            (fault = .unknownOpcode word machine.state.counter ↔
              Instruction.decode word = none) ∧
            ∀ instruction, Instruction.decode word = some instruction →
              (instruction.executeDrawing machine.random machine.state).1 =
                .error (.fault fault))) ∧
      (∀ instruction, machine.step.answer = .executed instruction →
        ∃ word, machine.state.fetch = .ok word ∧
          Instruction.decode word = some instruction ∧
          instruction.executeDrawing machine.random machine.state =
            (.ok machine.step.machine.state, machine.step.machine.random)) ∧
      (machine.step.answer = .awaiting →
        ∃ word instruction, machine.state.fetch = .ok word ∧
          Instruction.decode word = some instruction ∧
          instruction.executeDrawing machine.random machine.state =
            (.ok machine.step.machine.state,
              machine.step.machine.random)) := by
  refine ⟨?faulted, ?executed, ?awaiting⟩
  case faulted =>
    intro fault faulted
    obtain ⟨counter, records, recovery, stage⟩ := recovery_of_faulted faulted
    refine ⟨by rw [recovery]; rfl, ?_⟩
    rw [recovery]
    obtain ⟨past, rfl, rfl⟩ | ⟨word, fetched, within, rfl, cause⟩ := stage
    · left
      exact ⟨past, (machine.state.fetch_eq_error_iff _).mpr ⟨past, rfl⟩, rfl,
        rfl⟩
    · right
      refine ⟨word, fetched, within, rfl, ?_⟩
      obtain ⟨undecoded, rfl⟩ | ⟨instruction, decoded, refused⟩ := cause
      · simp [undecoded]
      · have named : fault ≠ .unknownOpcode word machine.state.counter := by
          rintro rfl
          exact instruction.fault?_ne_unknownOpcode _ _ _ refused
        refine ⟨by simp [named, decoded], ?_⟩
        intro other same
        cases decoded.symm.trans same
        exact execution_of_refused refused machine.random
  case executed =>
    intro instruction ran
    obtain ⟨word, produced, fetched, decoded, execution, waited | same⟩ :=
      production_of_completes (by rw [ran]; rfl)
    · cases ran.symm.trans waited
    · cases ran.symm.trans same
      exact ⟨word, fetched, decoded, execution⟩
  case awaiting =>
    intro waited
    obtain ⟨word, instruction, fetched, decoded, execution, _⟩ :=
      production_of_completes (by rw [waited]; rfl)
    exact ⟨word, instruction, fetched, decoded, execution⟩

end Machine

end ChipEight
