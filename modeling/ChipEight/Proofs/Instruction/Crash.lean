import ChipEight.Proofs.Instruction.Continuation
import ChipEight.Proofs.Instruction.Refusal
import ChipEight.Proofs.Keypad.Keys
import ChipEight.Proofs.Machine.Safety

/-!
# When instructions crash

A machine keeps its states away from crashes, but instructions can be executed
in any state at all.  There an instruction that is not refused crashes for one
of two reasons: a return asks for a slot that does not exist, or the counter to
go on at is no word.  Which of the two, and from which counter on, depends on
how the instruction continues.
-/

namespace ChipEight

namespace Word

theorem advance_eq_error_iff (word : Word) (distance : Nat) (cause : Crash) :
    word.advance distance = .error cause ↔
      0xFFFF < word.toNat + distance ∧ cause = .counterOverflow := by
  rw [advance]
  split
  case isTrue fits => simp; omega
  case isFalse past => simp [eq_comm]; omega

end Word

namespace Instruction

def isSkip : Instruction → Bool
  | skipIfByte _ _ | skipUnlessByte _ _ => true
  | skipIfEqual _ _ | skipUnlessEqual _ _ => true
  | skipIfDown _ | skipUnlessDown _ => true
  | _ => false

theorem continuation_of_isSkip {instruction : Instruction}
    (skip : instruction.isSkip = true) (state : State) :
    instruction.continuation state =
      state.counter.advance (if instruction.skips state then 4 else 2) := by
  cases instruction <;> first | rfl | cases skip

theorem not_isStraight_of_isSkip {instruction : Instruction}
    (skip : instruction.isSkip = true) : instruction.isStraight = false := by
  cases instruction <;> first | rfl | cases skip

end Instruction

/-- The ways in which an instruction finds no place to continue, each with the
crash that it is. -/
inductive State.Strands (state : State) : Instruction → Crash → Prop
  /-- A return from a depth that there are no slots for. -/
  | slotMissing (deep : stackCapacity < state.stack.depth.toNat) :
      Strands state .leave (.indexOutOfBounds (state.stack.depth.toNat - 1))
  | returnedPast {address : Word} (called : 1 ≤ state.stack.depth.toNat)
      (found : state.stack.slot? (state.stack.depth.toNat - 1) = some address)
      (last : 0xFFFD < address.toNat) :
      Strands state .leave .counterOverflow
  | skippedPast {instruction : Instruction} (skip : instruction.isSkip = true)
      (taken : instruction.skips state = true)
      (last : 0xFFFB < state.counter.toNat) :
      Strands state instruction .counterOverflow
  | skipEndedPast {instruction : Instruction}
      (skip : instruction.isSkip = true)
      (untaken : instruction.skips state = false)
      (last : 0xFFFD < state.counter.toNat) :
      Strands state instruction .counterOverflow
  | keyTakenPast {x : UInt8}
      (pressed : ∃ key, state.keypad.isDown key = true)
      (last : 0xFFFD < state.counter.toNat) :
      Strands state (.awaitKey x) .counterOverflow
  | passedPast {instruction : Instruction}
      (straight : instruction.isStraight = true)
      (last : 0xFFFD < state.counter.toNat) :
      Strands state instruction .counterOverflow

namespace Instruction

variable {state : State} {cause : Crash}

theorem strands_leave_iff (called : state.stack.depth.toNat ≠ 0) :
    leave.continuation state = .error cause ↔ state.Strands leave cause := by
  rw [continuation_leave, returnTarget, CallStack.top]
  constructor
  · intro stops
    split at stops
    case h_1 address found =>
      obtain ⟨past, rfl⟩ := (address.advance_eq_error_iff 2 cause).mp stops
      exact .returnedPast (by omega) found (by omega)
    case h_2 missing =>
      cases stops
      refine .slotMissing ?_
      by_contra shallow
      obtain ⟨address, found⟩ := state.stack.exists_slot?
          (show state.stack.depth.toNat - 1 < stackCapacity by omega)
      cases missing.symm.trans found
  · rintro (deep | ⟨_, found, last⟩ | skip | skip | _ | straight)
    · have missing : state.stack.slot? (state.stack.depth.toNat - 1) = none :=
        Vector.getElem?_eq_none (by simp only [stackCapacity] at deep; omega)
      rw [missing]
    · rw [found]
      exact (Word.advance_eq_error_iff _ 2 _).mpr ⟨by omega, rfl⟩
    · cases skip
    · cases skip
    · cases straight

theorem strands_awaitKey_iff {x : UInt8} :
    (awaitKey x).continuation state = .error cause ↔
      state.Strands (awaitKey x) cause := by
  rw [continuation_awaitKey]
  constructor
  · intro stops
    split at stops
    case h_1 key lowest =>
      obtain ⟨past, rfl⟩ :=
        (state.counter.advance_eq_error_iff 2 cause).mp stops
      exact .keyTakenPast ⟨key, List.find?_some lowest⟩ (by omega)
    case h_2 => cases stops
  · rintro (_ | _ | skip | skip | ⟨pressed, last⟩ | straight)
    · cases skip
    · cases skip
    · split
      case h_1 => exact (Word.advance_eq_error_iff _ 2 _).mpr ⟨by omega, rfl⟩
      case h_2 none =>
        exact absurd pressed (state.keypad.lowest?_eq_none_iff.mp none)
    · cases straight

theorem strands_of_isSkip_iff {instruction : Instruction}
    (skip : instruction.isSkip = true) :
    instruction.continuation state = .error cause ↔
      state.Strands instruction cause := by
  rw [continuation_of_isSkip skip, Word.advance_eq_error_iff]
  constructor
  · rintro ⟨past, rfl⟩
    cases taken : instruction.skips state with
    | true =>
        rw [taken, if_pos rfl] at past
        exact .skippedPast skip taken (by omega)
    | false =>
        rw [taken, if_neg Bool.false_ne_true] at past
        exact .skipEndedPast skip taken (by omega)
  · rintro (_ | _ | ⟨_, taken, last⟩ | ⟨_, untaken, last⟩ | _ | straight)
    · cases skip
    · cases skip
    · exact ⟨by rw [taken, if_pos rfl]; omega, rfl⟩
    · exact ⟨by rw [untaken, if_neg Bool.false_ne_true]; omega, rfl⟩
    · cases skip
    · cases (not_isStraight_of_isSkip skip).symm.trans straight

theorem strands_of_isStraight_iff {instruction : Instruction}
    (straight : instruction.isStraight = true) :
    instruction.continuation state = .error cause ↔
      state.Strands instruction cause := by
  rw [continuation_of_isStraight straight, Word.advance_eq_error_iff]
  constructor
  · rintro ⟨past, rfl⟩
    exact .passedPast straight (by omega)
  · rintro (_ | _ | skip | skip | _ | ⟨_, last⟩)
    · cases straight
    · cases straight
    · cases (not_isStraight_of_isSkip skip).symm.trans straight
    · cases (not_isStraight_of_isSkip skip).symm.trans straight
    · cases straight
    · exact ⟨by omega, rfl⟩

/-- Whether an instruction goes on at an address of its own. -/
def isJump : Instruction → Bool
  | jump _ | call _ | jumpBeyond _ => true
  | _ => false

theorem not_strands_of_isJump {instruction : Instruction}
    (jumps : instruction.isJump = true) :
    ¬ state.Strands instruction cause := by
  rintro (_ | _ | skip | skip | _ | straight)
  · cases jumps
  · cases jumps
  · cases instruction <;> first | cases skip; done | cases jumps
  · cases instruction <;> first | cases skip; done | cases jumps
  · cases jumps
  · cases instruction <;> first | cases straight; done | cases jumps

/-- A jump goes on at a word, even if it adds a byte to its address, which has
twelve bits. -/
theorem continuation_of_isJump {instruction : Instruction}
    (encodable : instruction.Encodable) (jumps : instruction.isJump = true) :
    instruction.continuation state ≠ .error cause := by
  cases instruction with
  | jumpBeyond base =>
      have small : base.toNat < 0x1000 := encodable
      have byte := (state.register 0).toNat_lt
      rw [continuation_jumpBeyond, ne_eq, Word.advance_eq_error_iff]
      omega
  | jump target | call target => exact fun stops => by cases stops
  | _ => cases jumps

/-- Once it is not refused, an instruction that fits into a word has no
continuation exactly in the ways that are listed. -/
theorem continuation_eq_error_iff {instruction : Instruction}
    (encodable : instruction.Encodable)
    (accepted : instruction.fault? state = none) :
    instruction.continuation state = .error cause ↔
      state.Strands instruction cause := by
  cases instruction with
  | leave => exact strands_leave_iff (depth_ne_zero_of_accepted accepted)
  | awaitKey x => exact strands_awaitKey_iff
  | skipIfByte _ _ | skipUnlessByte _ _ | skipIfEqual _ _
  | skipUnlessEqual _ _ | skipIfDown _ | skipUnlessDown _ =>
      exact strands_of_isSkip_iff rfl
  | jump _ | call _ | jumpBeyond _ =>
      exact iff_of_false (continuation_of_isJump encodable rfl)
        (not_strands_of_isJump rfl)
  | _ => exact strands_of_isStraight_iff rfl

theorem fault?_eq_none_iff (instruction : Instruction) :
    instruction.fault? state = none ↔
      ∀ fault, ¬ state.Refuses instruction fault := by
  rw [Option.eq_none_iff_forall_ne_some]
  exact forall_congr' fun fault => not_congr (fault?_eq_some_iff instruction)

theorem execute_eq_crash_iff {instruction : Instruction}
    (encodable : instruction.Encodable) (random : UInt8) :
    instruction.execute random state = .error (.crash cause) ↔
      instruction.fault? state = none ∧
        instruction.continuation state = .error cause := by
  rw [execute_of_encodable encodable]
  cases instruction.fault? state with
  | some fault => simp
  | none => cases instruction.continuation state <;> simp

/-- A decoded instruction crashes, in whatever state and with whatever random
byte, exactly if the state does not refuse it and it finds no place to
continue.  A refusal comes first; jumps and calls never crash; and an
instruction that is not refused finds everything it asks for, unless it is a
return from a depth that there are no slots for. -/
theorem execute_crashes_iff_strands {word : Word} {instruction : Instruction}
    (decoded : decode word = some instruction) (random : UInt8)
    (state : State) :
    (∀ cause, instruction.execute random state = .error (.crash cause) ↔
        (∀ fault, ¬ state.Refuses instruction fault) ∧
          state.Strands instruction cause) ∧
      (∀ fault, state.Refuses instruction fault →
        instruction.execute random state = .error (.fault fault)) ∧
      (instruction.isJump = true →
        ∀ cause, instruction.execute random state ≠ .error (.crash cause)) ∧
      ((∀ fault, ¬ state.Refuses instruction fault) →
        instruction.InBounds state ∨
          instruction = leave ∧ stackCapacity < state.stack.depth.toNat) := by
  have encodable := encodable_of_decode decoded
  have crashes_iff : ∀ cause,
      instruction.execute random state = .error (.crash cause) ↔
        (∀ fault, ¬ state.Refuses instruction fault) ∧
          state.Strands instruction cause := by
    intro cause
    rw [execute_eq_crash_iff encodable, ← fault?_eq_none_iff]
    exact and_congr_right (continuation_eq_error_iff encodable)
  refine ⟨crashes_iff, ?refused, ?jumps, ?found⟩
  case refused =>
    intro fault refuses
    rw [execute_eq_fault_iff encodable, fault?_eq_some_iff]
    exact refuses
  case jumps =>
    intro jumps cause crashed
    exact not_strands_of_isJump jumps ((crashes_iff cause).mp crashed).2
  case found =>
    intro unrefused
    have accepted := (fault?_eq_none_iff instruction).mpr unrefused
    by_cases deep : instruction = leave ∧
        stackCapacity < state.stack.depth.toNat
    · exact .inr deep
    · refine .inl (inBounds_of_accepted encodable accepted ?_)
      intro leaves
      exact Nat.not_lt.mp fun past => deep ⟨leaves, past⟩

/-- A return from the last slot, which holds an address whose successor is no
word. -/
theorem leave_crashes_past_last_word :
    let stack : CallStack :=
      { slots := (Vector.replicate 16 0).set 15 0xFFFE, depth := 16 }
    let state := { State.initial with stack := stack }
    decode 0x00EE = some leave ∧
      leave.execute 0 state = .error (.crash .counterOverflow) := by
  intro stack state
  have decoded : decode 0x00EE = some leave := by decide
  have unrefused : ∀ fault, ¬ state.Refuses leave fault :=
    (fault?_eq_none_iff leave).mp rfl
  have strands : state.Strands leave .counterOverflow :=
    .returnedPast (by decide) (show state.stack.slot? 15 = some 0xFFFE from rfl)
      (by decide)
  exact ⟨decoded, ((execute_crashes_iff_strands decoded 0 state).1 _).mpr
    ⟨unrefused, strands⟩⟩

end Instruction

end ChipEight
