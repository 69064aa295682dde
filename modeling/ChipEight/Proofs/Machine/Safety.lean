import ChipEight.Proofs.Frame.Drawing
import ChipEight.Proofs.Instruction.Continuation
import ChipEight.Proofs.Instruction.Footprint
import ChipEight.Proofs.Machine.Reachability

/-!
# Machines never crash

No instruction is safe by itself: a return trusts the slots of the call stack,
every instruction trusts that the next counter is a word, and a jump may leave
memory.  What keeps a machine from crashing is an invariant that ties counter,
depth and slots together.  It holds in a new machine and survives every
operation, so every instruction of a reachable machine finds a place to
continue and stays within the registers, slots, addresses and cells there are.
-/

namespace ChipEight

/-- The states that operations of a new machine lead to satisfy this. -/
structure State.WellFormed (state : State) : Prop where
  /-- The last place to continue is a jump from the last address by the
  largest byte. -/
  counter_le : state.counter.toNat ≤ 0x10FE
  depth_le : state.stack.depth.toNat ≤ stackCapacity
  /-- Calls are made from counters where a word can be fetched. -/
  slot_le : ∀ index address, state.stack.slot? index = some address →
    address.toNat ≤ 0xFFE
  frame_binary : state.frame.IsBinary

namespace CallStack

theorem exists_slot? (stack : CallStack) {index : Nat}
    (inside : index < stackCapacity) :
    ∃ address, stack.slot? index = some address :=
  ⟨stack.slots[index], Vector.getElem?_eq_getElem inside⟩

theorem toNat_depth_push {stack : CallStack}
    (room : stack.depth.toNat < stackCapacity) (address : Word) :
    (stack.push address).depth.toNat = stack.depth.toNat + 1 := by
  rw [stackCapacity] at room
  rw [depth_push, UInt8.toNat_add]
  simp only [UInt8.reduceToNat]
  omega

theorem toNat_depth_pop {stack : CallStack} (filled : stack.depth.toNat ≠ 0) :
    stack.pop.depth.toNat + 1 = stack.depth.toNat := by
  have small := stack.depth.toNat_lt
  rw [depth_pop, UInt8.toNat_sub]
  simp only [UInt8.reduceToNat]
  omega

end CallStack

namespace Instruction

/-- Everything that an instruction asks an array for is there. -/
structure InBounds (state : State) (instruction : Instruction) : Prop where
  registers : ∀ name ∈ instruction.namedRegisters,
    name.toNat < registerCount
  slot : ∀ index, instruction.slotUsed? state = some index →
    index < stackCapacity
  memory : ∀ span, instruction.spanUsed? state = some span →
    span.stop ≤ memorySize
  cells : ∀ position ∈ instruction.cellsFlipped state,
    position.offset < displayWidth * displayHeight

theorem depth_ne_zero_of_accepted {state : State}
    (accepted : leave.fault? state = none) :
    state.stack.depth.toNat ≠ 0 := by
  simp only [fault?, ite_eq_right_iff, reduceCtorEq, imp_false] at accepted
  exact fun zero => accepted (UInt8.toNat_inj.mp zero)

theorem depth_lt_of_accepted {state : State} {target : Word}
    (accepted : (call target).fault? state = none) :
    state.stack.depth.toNat < stackCapacity := by
  simp only [fault?, ite_eq_right_iff, reduceCtorEq, imp_false] at accepted
  omega

/-- An instruction that is not refused finds all it asks for, provided that a
return does not come from too deep. -/
theorem inBounds_of_accepted {state : State} {instruction : Instruction}
    (encodable : instruction.Encodable)
    (accepted : instruction.fault? state = none)
    (deep : instruction = leave → state.stack.depth.toNat ≤ stackCapacity) :
    instruction.InBounds state where
  registers := named_lt_of_encodable encodable
  slot := by
    intro index used
    cases instruction with
    | leave =>
        cases used
        have shallow := deep rfl
        have filled := depth_ne_zero_of_accepted accepted
        simp only [CallStack.top]
        omega
    | call target =>
        cases used
        exact depth_lt_of_accepted accepted
    | _ => cases used
  memory := fun span used => spanUsed_stop_le accepted used
  cells := fun position _ => position.offset_lt

theorem inBounds_of_wellFormed {state : State} (sound : state.WellFormed)
    {instruction : Instruction} (encodable : instruction.Encodable)
    (accepted : instruction.fault? state = none) :
    instruction.InBounds state :=
  inBounds_of_accepted encodable accepted fun _ => sound.depth_le

/-- An instruction that is not refused finds a place to continue. -/
theorem exists_continuation {state : State} (sound : state.WellFormed)
    (within : state.counter.toNat ≤ 0xFFE) {instruction : Instruction}
    (encodable : instruction.Encodable)
    (accepted : instruction.fault? state = none) :
    ∃ counter, instruction.continuation state = .ok counter ∧
      counter.toNat ≤ 0x10FE := by
  have short : ∀ distance ≤ 4, ∃ counter,
      state.counter.advance distance = .ok counter ∧
        counter.toNat ≤ 0x10FE := by
    intro distance small
    exact Word.exists_advance_eq_ok (by omega) (by decide)
  cases instruction with
  | jump target =>
      simp only [Encodable] at encodable
      exact ⟨target, rfl, by omega⟩
  | call target =>
      simp only [Encodable] at encodable
      exact ⟨target, rfl, by omega⟩
  | jumpBeyond base =>
      simp only [Encodable] at encodable
      have byte := (state.register 0).toNat_lt
      exact Word.exists_advance_eq_ok (by omega) (by decide)
  | leave =>
      have inside := (inBounds_of_wellFormed sound encodable accepted).slot _ rfl
      obtain ⟨address, found⟩ := state.stack.exists_slot? inside
      have low := sound.slot_le _ _ found
      rw [continuation_leave, returnTarget, found]
      exact Word.exists_advance_eq_ok (by omega) (by decide)
  | awaitKey x =>
      rw [continuation_awaitKey]
      cases state.keypad.lowest? with
      | some key => exact short 2 (by omega)
      | none => exact ⟨_, rfl, by omega⟩
  | _ => exact short _ (by split <;> omega)

end Instruction

namespace State

theorem wellFormed_initial : initial.WellFormed where
  counter_le := by decide
  depth_le := by decide
  slot_le := by
    intro index address found
    obtain ⟨inside, rfl⟩ := Vector.getElem?_eq_some_iff.mp found
    simp [initial, CallStack.empty]
  frame_binary := Frame.isBinary_blank

/-- An instruction that runs does not make the call stack deeper than it has
slots. -/
theorem depth_effect_le {state : State}
    (shallow : state.stack.depth.toNat ≤ stackCapacity)
    {instruction : Instruction} (accepted : instruction.fault? state = none)
    (random : UInt8) :
    (instruction.effect random state).stack.depth.toNat ≤ stackCapacity := by
  rw [Instruction.stack_effect]
  cases instruction with
  | leave =>
      have filled := Instruction.depth_ne_zero_of_accepted accepted
      have shallower := CallStack.toNat_depth_pop filled
      change state.stack.pop.depth.toNat ≤ stackCapacity
      omega
  | call target =>
      have room := Instruction.depth_lt_of_accepted accepted
      change (state.stack.push state.counter).depth.toNat ≤ stackCapacity
      rw [CallStack.toNat_depth_push room]
      exact room
  | _ => exact shallow

/-- No operation makes the call stack deeper than it has slots. -/
theorem Change.depth_le {before after : State} (change : before.Change after)
    (shallow : before.stack.depth.toNat ≤ stackCapacity) :
    after.stack.depth.toNat ≤ stackCapacity := by
  cases change with
  | ran random within fetched decoded accepted continues =>
      exact depth_effect_le shallow accepted random
  | cleared => decide
  | _ => exact shallow

/-- An instruction that runs keeps calls from places where a word can be
fetched in the slots. -/
theorem WellFormed.slot_effect {state : State} (sound : state.WellFormed)
    (within : state.counter.toNat ≤ 0xFFE) (instruction : Instruction)
    (random : UInt8) (index : Nat) (address : Word)
    (found : (instruction.effect random state).stack.slot? index =
      some address) : address.toNat ≤ 0xFFE := by
  rw [Instruction.stack_effect] at found
  cases instruction with
  | call target =>
      simp only [CallStack.slot?_push] at found
      split at found
      · cases found
        exact within
      · exact sound.slot_le index address found
  | _ => exact sound.slot_le index address found

/-- An instruction that runs keeps zeros and ones on the frame. -/
theorem WellFormed.frame_effect {state : State} (sound : state.WellFormed)
    {instruction : Instruction} (encodable : instruction.Encodable)
    (random : UInt8) :
    (instruction.effect random state).frame.IsBinary := by
  rw [Instruction.frame_effect]
  cases instruction with
  | clearFrame => exact Frame.isBinary_blank
  | draw x y height =>
      simp only [Instruction.Encodable] at encodable
      apply sound.frame_binary.draw
      simp only [Instruction.sprite, Memory.length_slice]
      omega
  | _ => exact sound.frame_binary

/-- Every change that an operation makes keeps states well-formed. -/
theorem WellFormed.change {before after : State}
    (change : before.Change after) (sound : before.WellFormed) :
    after.WellFormed := by
  have deep := change.depth_le sound.depth_le
  cases change with
  | kept => exact sound
  | passed within =>
      refine { sound with counter_le := ?_ }
      simp only [UInt16.toNat_add, UInt16.reduceToNat]
      omega
  | ran random within fetched decoded accepted continues =>
      have encodable := Instruction.encodable_of_decode decoded
      obtain ⟨next, continuation, bound⟩ :=
        Instruction.exists_continuation sound within encodable accepted
      cases continues.symm.trans continuation
      exact
        { counter_le := bound
          depth_le := deep
          slot_le := sound.slot_effect within _ random
          frame_binary := sound.frame_effect encodable random }
  | loaded program fits => exact { sound with }
  | ticked => exact { sound with }
  | keySet key down => exact { sound with }
  | cleared => exact wellFormed_initial
  | shown => exact { sound with }

end State

namespace Machine

theorem wellFormed_perform {machine : Machine}
    (sound : machine.state.WellFormed) (operation : Operation) :
    (machine.perform operation).machine.state.WellFormed :=
  sound.change (machine.change_of_perform operation)

theorem depth_perform_le {machine : Machine}
    (shallow : machine.state.stack.depth.toNat ≤ stackCapacity)
    (operation : Operation) :
    (machine.perform operation).machine.state.stack.depth.toNat ≤
      stackCapacity :=
  (machine.change_of_perform operation).depth_le shallow

theorem Reachable.wellFormed {machine : Machine}
    (reachable : machine.Reachable) : machine.state.WellFormed :=
  reachable.state_keeps State.wellFormed_initial
    fun _ _ change sound => sound.change change

/-- A step from a well-formed state does not crash. -/
theorem step_ne_crashed {machine : Machine}
    (sound : machine.state.WellFormed) (cause : Crash) :
    machine.step.answer ≠ .crashed cause := by
  intro crashed
  have rule := machine.stepRule
  generalize machine.step = response at rule crashed
  cases rule with
  | unfetchable past => cases crashed
  | unknown within fetched undecoded => cases crashed
  | refused within fetched decoded refusal => cases crashed
  | @ran word instruction counter within fetched decoded accepted continues
      next produced =>
      rcases outcomeOf_eq instruction machine.state next with waits | runs
      · cases waits.symm.trans crashed
      · cases runs.symm.trans crashed
  | crashed within fetched decoded accepted stops =>
      obtain ⟨counter, continues, _⟩ :=
        Instruction.exists_continuation sound within
          (Instruction.encodable_of_decode decoded) accepted
      cases stops.symm.trans continues

/-- Whatever is done to a new machine, its state stays well-formed, no
operation crashes, and everything that is read or written exists. -/
theorem run_never_crashes (random : RandomSource)
    (operations : List Operation) :
    let machine := (new random).run operations
    machine.state.WellFormed ∧
      (∀ operation cause,
        (machine.perform operation).answer ≠ .step (.crashed cause)) ∧
      (∀ word, machine.state.fetch = .ok word →
        machine.state.counter.toNat + 2 ≤ memorySize ∧
          ∀ instruction, Instruction.decode word = some instruction →
            instruction.fault? machine.state = none →
              instruction.InBounds machine.state) ∧
      ∀ program, (machine.load program).answer = .ok () →
        programStart.toNat + program.length ≤ memorySize := by
  intro machine
  have sound : machine.state.WellFormed :=
    Reachable.wellFormed ⟨random, operations, rfl⟩
  refine ⟨sound, ?_, ?_, ?_⟩
  · intro operation cause crashed
    cases operation with
    | step =>
        simp only [perform, Response.map, Answer.step.injEq] at crashed
        exact step_ne_crashed sound cause crashed
    | _ => cases crashed
  · intro word fetched
    have within := ((machine.state.fetch_eq_ok_iff word).mp fetched).1
    refine ⟨by simp only [memorySize]; omega, ?_⟩
    intro instruction decoded accepted
    exact Instruction.inBounds_of_wellFormed sound
      (Instruction.encodable_of_decode decoded) accepted
  · intro program accepted
    simp only [load] at accepted
    split at accepted
    · cases accepted
    · simp only [programCapacity] at *
      simp only [programStart, memorySize, UInt16.reduceToNat]
      omega

end Machine

end ChipEight
