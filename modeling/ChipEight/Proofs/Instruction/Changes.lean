import Mathlib.Tactic.ByContra
import ChipEight.Proofs.Instruction.Footprint

/-!
# What an instruction may change

Every instruction rebuilds the whole state, so that a stray field would go
unnoticed.  A footprint says, for each part of a state, which instructions may
change it and where: the register of the result, the flag, the bytes of a
stored span, the slot of a call.  An instruction that succeeds keeps to its
footprint, whatever the state and the random byte.
-/

namespace ChipEight

namespace State

theorem register_setRegister_of_ne (state : State) {name other : UInt8}
    (apart : name ≠ other) (value : UInt8) :
    (state.setRegister name value).register other = state.register other := by
  simp [setRegister, register, apart]

theorem register_setRegister_self (state : State) {name : UInt8}
    (named : name.toNat < registerCount) (value : UInt8) :
    (state.setRegister name value).register name = value := by
  simp [setRegister, register, named]

theorem register_setFlagged_of_ne (state : State) {name other : UInt8}
    (apart : name ≠ other) (unflagged : other ≠ 0xF) (value flag : UInt8) :
    (state.setFlagged name value flag).register other =
      state.register other := by
  simp [setFlagged, RegisterFile.setFlag, register, apart, unflagged.symm]

end State

namespace RegisterFile

theorem get_setFirsts_of_le (registers : RegisterFile) {values : List UInt8}
    {name : UInt8} (past : values.length ≤ name.toNat) :
    (registers.setFirsts values).get name = registers.get name := by
  by_cases named : name.toNat < registerCount
  · rw [get_setFirsts registers values named, List.getElem?_eq_none past,
      Option.getD_none]
  · have missing : ∀ file : RegisterFile, file.get name = 0 := by
      intro file
      rw [get, Vector.getElem?_eq_none (by simpa using named), Option.getD_none]
    rw [missing, missing]

end RegisterFile

namespace Instruction

/-- The register that an instruction puts its result into. -/
def result? : Instruction → Option UInt8
  | setByte x _ | addByte x _ | copy x _ | union x _ | intersect x _
  | differ x _ | add x _ | subtract x _ | halve x | subtractFrom x _
  | double x | random x _ | readDelay x | awaitKey x => some x
  | _ => none

/-- Whether an instruction writes the flag besides its result. -/
def setsFlag : Instruction → Bool
  | add _ _ | subtract _ _ | halve _ | subtractFrom _ _ | double _ => true
  | draw _ _ _ => true
  | _ => false

/-- Whether an instruction may change a register. -/
def WritesRegister (name : UInt8) (instruction : Instruction) : Prop :=
  instruction.result? = some name ∨
    (instruction.setsFlag = true ∧ name = 0xF) ∨
    ∃ last, instruction = loadRegisters last ∧ name ≤ last

/-- How the state after an instruction may differ from the state before. -/
structure Footprint (instruction : Instruction) (before after : State) :
    Prop where
  memory : ∀ address,
    after.memory.byte address ≠ before.memory.byte address →
      instruction.writesMemory = true ∧
        ∃ span, instruction.spanUsed? before = some span ∧
          span.start.toNat ≤ address ∧ address < span.stop
  frame : after.frame ≠ before.frame → instruction.changesFrame = true
  /-- Raised by what may change the frame, and never lowered. -/
  redraw : after.redraw = (instruction.changesFrame || before.redraw)
  /-- The only key that is released is the one that was stored. -/
  keypad : after.keypad ≠ before.keypad →
    ∃ x, instruction = awaitKey x ∧
      before.keypad.isDown (after.register x) = true ∧
      after.keypad = before.keypad.set (after.register x) false
  delay : after.timers.delay ≠ before.timers.delay →
    ∃ x, instruction = setDelay x
  sound : after.timers.sound ≠ before.timers.sound →
    ∃ x, instruction = setSound x
  slot : ∀ place, after.stack.slot? place ≠ before.stack.slot? place →
    place = before.stack.depth.toNat ∧ ∃ target, instruction = call target
  depth : after.stack.depth ≠ before.stack.depth →
    instruction = leave ∨ ∃ target, instruction = call target
  index : after.index ≠ before.index →
    (∃ address, instruction = setIndex address) ∨
      (∃ x, instruction = advanceIndex x) ∨ ∃ x, instruction = findGlyph x
  register : ∀ name, after.register name ≠ before.register name →
    instruction.WritesRegister name

/-- What is known of an instruction that succeeded. -/
theorem success_of_execute {instruction : Instruction} {random : UInt8}
    {before after : State}
    (executed : instruction.execute random before = .ok after) :
    instruction.fault? before = none ∧
      instruction.missingRegister? before = none ∧
      ∃ counter, instruction.continuation before = .ok counter ∧
        after = { instruction.effect random before with counter := counter } := by
  rw [execute] at executed
  split at executed
  · cases executed
  · next accepted =>
    split at executed
    · cases executed
    · next named =>
      split at executed
      · cases executed
      · next counter continues =>
        cases executed
        exact ⟨accepted, named, counter, continues, rfl⟩

section Effects

variable (random : UInt8) (state : State) (instruction : Instruction)

theorem register_effect {name : UInt8}
    (unwritten : ¬ instruction.WritesRegister name) :
    (instruction.effect random state).register name = state.register name := by
  have apart : ∀ x, instruction.result? = some x → x ≠ name := by
    rintro x result rfl
    exact unwritten (.inl result)
  have unflagged : instruction.setsFlag = true → name ≠ 0xF :=
    fun sets flag => unwritten (.inr (.inl ⟨sets, flag⟩))
  cases instruction with
  | setByte x _ | addByte x _ | copy x _ | union x _ | intersect x _
  | differ x _ | random x _ | readDelay x =>
      exact state.register_setRegister_of_ne (apart x rfl) _
  | add x _ | subtract x _ | halve x | subtractFrom x _ | double x =>
      exact state.register_setFlagged_of_ne (apart x rfl) (unflagged rfl) _ _
  | draw x y height =>
      exact state.register_setRegister_of_ne (unflagged rfl).symm _
  | awaitKey x =>
      rw [effect, keyTaken]
      split
      · exact state.register_setRegister_of_ne (apart x rfl) _
      · rfl
  | loadRegisters x =>
      apply RegisterFile.get_setFirsts_of_le
      have past : ¬ name ≤ x :=
        fun below => unwritten (.inr (.inr ⟨x, rfl, below⟩))
      rw [UInt8.le_iff_toNat_le] at past
      rw [Memory.length_slice]
      omega
  | _ => rfl

theorem index_effect
    (kept : (∀ address, instruction ≠ setIndex address) ∧
      (∀ x, instruction ≠ advanceIndex x) ∧ ∀ x, instruction ≠ findGlyph x) :
    (instruction.effect random state).index = state.index := by
  obtain ⟨unset, unmoved, unfound⟩ := kept
  cases instruction with
  | setIndex address => exact absurd rfl (unset address)
  | advanceIndex x => exact absurd rfl (unmoved x)
  | findGlyph x => exact absurd rfl (unfound x)
  | awaitKey x =>
      obtain ⟨registers, keypad, taken⟩ := exists_keyTaken_eq state x
      rw [effect, taken]
  | _ => rfl

theorem delay_effect (unset : ∀ x, instruction ≠ setDelay x) :
    (instruction.effect random state).timers.delay = state.timers.delay := by
  cases instruction with
  | setDelay x => exact absurd rfl (unset x)
  | awaitKey x =>
      obtain ⟨registers, keypad, taken⟩ := exists_keyTaken_eq state x
      rw [effect, taken]
  | _ => rfl

theorem sound_effect (unset : ∀ x, instruction ≠ setSound x) :
    (instruction.effect random state).timers.sound = state.timers.sound := by
  cases instruction with
  | setSound x => exact absurd rfl (unset x)
  | awaitKey x =>
      obtain ⟨registers, keypad, taken⟩ := exists_keyTaken_eq state x
      rw [effect, taken]
  | _ => rfl

theorem keypad_effect (unwaiting : ∀ x, instruction ≠ awaitKey x) :
    (instruction.effect random state).keypad = state.keypad := by
  cases instruction with
  | awaitKey x => exact absurd rfl (unwaiting x)
  | _ => rfl

theorem depth_effect (unreturning : instruction ≠ leave)
    (uncalling : ∀ target, instruction ≠ call target) :
    (instruction.effect random state).stack.depth = state.stack.depth := by
  rw [stack_effect]
  cases instruction with
  | leave => exact absurd rfl unreturning
  | call target => exact absurd rfl (uncalling target)
  | _ => rfl

theorem slot?_effect {place : Nat}
    (other : place = state.stack.depth.toNat →
      ∀ target, instruction ≠ call target) :
    (instruction.effect random state).stack.slot? place =
      state.stack.slot? place := by
  rw [stack_effect]
  cases instruction with
  | call target =>
      have apart : state.stack.depth.toNat ≠ place :=
        fun same => other same.symm target rfl
      rw [CallStack.slot?_push, if_neg fun same => apart same.1]
  | _ => rfl

end Effects

/-- A wait that succeeds stores the lowest key in a register that exists and
releases it. -/
theorem keypad_of_awaitKey {x random : UInt8} {before after : State}
    (executed : (awaitKey x).execute random before = .ok after)
    (released : after.keypad ≠ before.keypad) :
    before.keypad.isDown (after.register x) = true ∧
      after.keypad = before.keypad.set (after.register x) false := by
  obtain ⟨_, named, counter, _, rfl⟩ := success_of_execute executed
  cases lowest : before.keypad.lowest? with
  | none =>
      simp only [effect, keyTaken, lowest] at released
      exact absurd rfl released
  | some key =>
      have present : x.toNat < registerCount := by
        simpa [missingRegister?, usedRegisters, lowest] using named
      have stored : (before.setRegister x key).register x = key :=
        before.register_setRegister_self present key
      have down : before.keypad.isDown key = true := List.find?_some lowest
      simp only [effect, keyTaken, lowest]
      change before.keypad.isDown ((before.setRegister x key).register x) = true ∧
        before.keypad.set key false =
          before.keypad.set ((before.setRegister x key).register x) false
      rw [stored]
      exact ⟨down, rfl⟩

/-- An instruction that succeeds changes nothing outside its footprint. -/
theorem footprint_of_execute {instruction : Instruction} {random : UInt8}
    {before after : State}
    (executed : instruction.execute random before = .ok after) :
    instruction.Footprint before after := by
  have released := fun x (waits : instruction = awaitKey x) =>
    keypad_of_awaitKey (waits ▸ executed)
  obtain ⟨_, _, counter, _, produced⟩ := success_of_execute executed
  constructor
  case memory =>
    intro address changed
    by_contra outside
    apply changed
    rw [produced]
    apply byte_effect
    intro writes span used
    by_contra within
    exact outside ⟨writes, span, used, by omega, by omega⟩
  case frame =>
    intro changed
    by_contra unchanging
    rw [Bool.not_eq_true] at unchanging
    apply changed
    rw [produced]
    exact frame_effect_of_not_changesFrame unchanging random before
  case redraw =>
    rw [produced]
    exact redraw_effect random before instruction
  case keypad =>
    intro changed
    by_contra kept
    have unwaiting : ∀ x, instruction ≠ awaitKey x :=
      fun x waits => kept ⟨x, waits, released x waits changed⟩
    apply changed
    rw [produced]
    exact keypad_effect random before instruction unwaiting
  case delay =>
    intro changed
    by_contra unset
    rw [not_exists] at unset
    apply changed
    rw [produced]
    exact delay_effect random before instruction unset
  case sound =>
    intro changed
    by_contra unset
    rw [not_exists] at unset
    apply changed
    rw [produced]
    exact sound_effect random before instruction unset
  case slot =>
    intro place changed
    by_contra other
    rw [not_and, not_exists] at other
    apply changed
    rw [produced]
    exact slot?_effect random before instruction other
  case depth =>
    intro changed
    by_contra straight
    rw [not_or, not_exists] at straight
    apply changed
    rw [produced]
    exact depth_effect random before instruction straight.1 straight.2
  case index =>
    intro changed
    by_contra kept
    simp only [not_or, not_exists] at kept
    apply changed
    rw [produced]
    exact index_effect random before instruction kept
  case register =>
    intro name changed
    by_contra unwritten
    apply changed
    rw [produced]
    exact register_effect random before instruction unwritten

end Instruction

end ChipEight
