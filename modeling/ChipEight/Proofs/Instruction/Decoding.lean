import ChipEight.Execution
import ChipEight.Instruction.Encoding

/-!
# Operands of decoded instructions

The digits of a word are small, so the operands of an instruction that was
decoded from a word fit into a word again.  In particular such an instruction
names no register that there is none of, and its execution reduces to the
question whether it is refused and where it continues.
-/

namespace ChipEight

namespace Word

theorem toNat_x_lt (word : Word) : word.x.toNat < 0x10 := by
  simp only [x, UInt16.toNat_toUInt8, UInt16.toNat_mod, UInt16.toNat_div,
    UInt16.reduceToNat]
  omega

theorem toNat_y_lt (word : Word) : word.y.toNat < 0x10 := by
  simp only [y, UInt16.toNat_toUInt8, UInt16.toNat_mod, UInt16.toNat_div,
    UInt16.reduceToNat]
  omega

theorem toNat_n_lt (word : Word) : word.n.toNat < 0x10 := by
  simp only [n, UInt16.toNat_toUInt8, UInt16.toNat_mod, UInt16.reduceToNat]
  omega

theorem toNat_nnn_lt (word : Word) : word.nnn.toNat < 0x1000 := by
  simp only [nnn, UInt16.toNat_mod, UInt16.reduceToNat]
  omega

end Word

namespace Instruction

theorem encodable_of_decodeArithmetic {x y : UInt8}
    (smallX : x.toNat < 0x10) (smallY : y.toNat < 0x10) {operation : Nat}
    {instruction : Instruction}
    (decoded : decodeArithmetic x y operation = some instruction) :
    instruction.Encodable := by
  unfold decodeArithmetic at decoded
  split at decoded <;> cases decoded <;>
    simp [Encodable, namedRegisters, smallX, smallY]

theorem encodable_of_decodeTransfer {x : UInt8} (smallX : x.toNat < 0x10)
    {operation : Nat} {instruction : Instruction}
    (decoded : decodeTransfer x operation = some instruction) :
    instruction.Encodable := by
  unfold decodeTransfer at decoded
  split at decoded <;> cases decoded <;>
    simp [Encodable, namedRegisters, smallX]

/-- The operands of a decoded instruction fit into an instruction word.  Two
families have tables of their own, and the others end in an instruction after at
most one more choice. -/
theorem encodable_of_decode {word : Word} {instruction : Instruction}
    (decoded : decode word = some instruction) : instruction.Encodable := by
  have smallX := word.toNat_x_lt
  have smallY := word.toNat_y_lt
  have smallN := word.toNat_n_lt
  have smallNNN := word.toNat_nnn_lt
  unfold decode at decoded
  split at decoded
  all_goals first
    | exact encodable_of_decodeArithmetic smallX smallY decoded
    | exact encodable_of_decodeTransfer smallX decoded
    | skip
  all_goals
    try split at decoded
    all_goals
      cases decoded <;>
        simp [Encodable, namedRegisters, smallX, smallY, smallN, smallNNN]

/-- An instruction whose operands fit into a word names existing registers. -/
theorem named_lt_of_encodable {instruction : Instruction}
    (encodable : instruction.Encodable) :
    ∀ name ∈ instruction.namedRegisters, name.toNat < registerCount := by
  cases instruction with
  | draw x y height =>
      simpa [namedRegisters, registerCount] using
        And.intro encodable.1 encodable.2.1
  | jump address | call address | setIndex address | jumpBeyond address =>
      simp [namedRegisters]
  | _ => exact encodable

theorem named_of_used {instruction : Instruction} {state : State}
    {name : UInt8} (used : name ∈ instruction.usedRegisters state) :
    name ∈ instruction.namedRegisters := by
  cases instruction with
  | awaitKey x =>
      simp only [usedRegisters] at used
      split at used
      · exact used
      · cases used
  | _ => exact used

theorem missingRegister?_eq_none {instruction : Instruction}
    (encodable : instruction.Encodable) (state : State) :
    instruction.missingRegister? state = none := by
  rw [missingRegister?, List.find?_eq_none]
  intro name used
  simpa using named_lt_of_encodable encodable name (named_of_used used)

/-- Once its registers exist, an instruction is refused, or it crashes on the
way to its next counter, or it has its effect. -/
theorem execute_of_encodable {instruction : Instruction}
    (encodable : instruction.Encodable) (random : UInt8) (state : State) :
    instruction.execute random state =
      match instruction.fault? state, instruction.continuation state with
      | some fault, _ => .error (.fault fault)
      | none, .error cause => .error (.crash cause)
      | none, .ok counter =>
        .ok { instruction.effect random state with counter := counter } := by
  rw [execute, missingRegister?_eq_none encodable]
  cases instruction.fault? state with
  | some fault => rfl
  | none =>
      cases instruction.continuation state with
      | error cause => rfl
      | ok counter => rfl

end Instruction

end ChipEight
