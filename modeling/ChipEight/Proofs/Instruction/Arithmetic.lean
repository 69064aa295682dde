import ChipEight.Proofs.Instruction.Changes
import ChipEight.Proofs.Instruction.Continuation

/-!
# Arithmetic and the flag

Sums, differences, halves and doubles of bytes need not be bytes.  Five
instructions put into the flag what their result cannot hold, so that result
and flag together say exactly what was computed over the integers.  Operands
are read before anything is written, and the result is written last: it may
replace an operand, and if its register is the flag itself, what the flag would
have told is lost.
-/

namespace ChipEight

namespace State

/-- The value of a register as an integer. -/
def number (state : State) (name : UInt8) : Int :=
  (state.register name).toNat

theorem number_nonneg (state : State) (name : UInt8) :
    0 ≤ state.number name :=
  Int.natCast_nonneg _

theorem number_lt (state : State) (name : UInt8) :
    state.number name < 256 :=
  Int.ofNat_lt.mpr (state.register name).toNat_lt

theorem number_inj {first second : State} {name other : UInt8} :
    first.number name = second.number other ↔
      first.register name = second.register other := by
  rw [number, number, Int.natCast_inj, UInt8.toNat_inj]

theorem register_setFlagged_self (state : State) {name : UInt8}
    (named : name.toNat < registerCount) (value flag : UInt8) :
    (state.setFlagged name value flag).register name = value := by
  simp [setFlagged, register, named]

theorem register_setFlagged_flag (state : State) {name : UInt8}
    (apart : name ≠ 0xF) (value flag : UInt8) :
    (state.setFlagged name value flag).register 0xF = flag := by
  simp [setFlagged, RegisterFile.setFlag, register, apart]

end State

namespace Instruction

theorem toNat_flag (condition : Bool) :
    (flag condition).toNat = condition.toNat := by
  cases condition <;> rfl

/-- A carry makes up for what the sum of two bytes has lost. -/
theorem carry_add_sum (first second : UInt8) :
    256 * ((flag (first.toNat + second.toNat > 255)).toNat : Int) +
        (first + second).toNat =
      first.toNat + second.toNat := by
  have := first.toNat_lt
  have := second.toNat_lt
  rw [toNat_flag, UInt8.toNat_add]
  by_cases carries : first.toNat + second.toNat > 255
  · rw [decide_eq_true carries, Bool.toNat_true]
    omega
  · rw [decide_eq_false carries, Bool.toNat_false]
    omega

/-- A borrow makes up for what the difference of two bytes has gained. -/
theorem difference_add (first second : UInt8) :
    ((first - second).toNat : Int) + second.toNat =
      first.toNat + 256 * (1 - (flag (second ≤ first)).toNat) := by
  have := first.toNat_lt
  have := second.toNat_lt
  rw [toNat_flag, UInt8.toNat_sub]
  by_cases covers : second ≤ first
  · have covered := UInt8.le_iff_toNat_le.mp covers
    rw [decide_eq_true covers, Bool.toNat_true]
    omega
  · have short := UInt8.le_iff_toNat_le.not.mp covers
    rw [decide_eq_false covers, Bool.toNat_false]
    omega

theorem flag_eq_one_iff (first second : UInt8) :
    ((flag (second ≤ first)).toNat : Int) = 1 ↔
      (second.toNat : Int) ≤ first.toNat := by
  rw [toNat_flag, Int.ofNat_le, ← UInt8.le_iff_toNat_le]
  by_cases covers : second ≤ first
  · simp [covers]
  · simp [covers]

/-- The bit that falls out of a shift to the right is the remainder. -/
theorem half_add_bit (value : UInt8) :
    2 * ((value / 2).toNat : Int) + (value % 2).toNat = value.toNat := by
  rw [UInt8.toNat_div, UInt8.toNat_mod]
  simp only [UInt8.reduceToNat]
  omega

/-- The bit that falls out of a shift to the left is the carry. -/
theorem bit_add_double (value : UInt8) :
    256 * ((value / 128).toNat : Int) + (value * 2).toNat =
      2 * value.toNat := by
  have := value.toNat_lt
  rw [UInt8.toNat_div, UInt8.toNat_mul]
  simp only [UInt8.reduceToNat]
  omega

theorem flag_le_one (condition : Bool) : (flag condition).toNat ≤ 1 := by
  rw [toNat_flag]
  exact condition.toNat_le

/-- The instructions that put a result into a register and a flag besides. -/
def flagged (x y : UInt8) : List Instruction :=
  [add x y, subtract x y, subtractFrom x y, halve x, double x]

/-- What an instruction with a flag computes over the integers: the equation
between its operands, its result and its flag. -/
def Balances (before : State) (result flag : Int) : Instruction → Prop
  | add x y => 256 * flag + result = before.number x + before.number y
  | subtract x y =>
    result + before.number y = before.number x + 256 * (1 - flag) ∧
      (flag = 1 ↔ before.number y ≤ before.number x)
  | subtractFrom x y =>
    result + before.number x = before.number y + 256 * (1 - flag) ∧
      (flag = 1 ↔ before.number x ≤ before.number y)
  | halve x => 2 * result + flag = before.number x
  | double x => 256 * flag + result = 2 * before.number x
  | _ => False

/-- An instruction with a flag replaces a register and the flag, and nothing is
lost between the two of them. -/
theorem exists_effect_eq_setFlagged {x y : UInt8} {instruction : Instruction}
    (arithmetic : instruction ∈ flagged x y) (state : State) :
    ∃ value flag : UInt8,
      (∀ random, instruction.effect random state =
        state.setFlagged x value flag) ∧
      flag.toNat ≤ 1 ∧
      instruction.Balances state value.toNat flag.toNat := by
  have small := (state.register x).toNat_lt
  simp only [flagged, List.mem_cons, List.not_mem_nil, or_false] at arithmetic
  obtain rfl | rfl | rfl | rfl | rfl := arithmetic
  case inl =>
    exact ⟨_, _, fun _ => rfl, flag_le_one _, carry_add_sum _ _⟩
  case inr.inl =>
    exact ⟨_, _, fun _ => rfl, flag_le_one _, difference_add _ _,
      flag_eq_one_iff _ _⟩
  case inr.inr.inl =>
    exact ⟨_, _, fun _ => rfl, flag_le_one _, difference_add _ _,
      flag_eq_one_iff _ _⟩
  case inr.inr.inr.inl =>
    refine ⟨_, _, fun _ => rfl, ?_, half_add_bit _⟩
    rw [UInt8.toNat_mod]
    exact Nat.le_of_lt_succ (Nat.mod_lt _ Nat.two_pos)
  case inr.inr.inr.inr =>
    refine ⟨_, _, fun _ => rfl, ?_, bit_add_double _⟩
    rw [UInt8.toNat_div]
    simp only [UInt8.reduceToNat]
    omega

theorem execute_flagged {x y : UInt8} {instruction : Instruction}
    (arithmetic : instruction ∈ flagged x y)
    (namedX : x.toNat < registerCount) (namedY : y.toNat < registerCount)
    {before : State} (fits : before.counter.toNat + 2 < 65536)
    (random : UInt8) :
    instruction.execute random before =
      .ok { instruction.effect random before with
        counter := before.counter + 2 } := by
  simp only [flagged, List.mem_cons, List.not_mem_nil, or_false] at arithmetic
  obtain rfl | rfl | rfl | rfl | rfl := arithmetic
  all_goals
    apply execute_of_isStraight rfl _ rfl fits
    simp [Encodable, namedRegisters, namedX, namedY]

/-- How an instruction with a flag leaves a state. -/
structure Computes (instruction : Instruction) (x : UInt8)
    (before after : State) : Prop where
  /-- The flag is kept unless its register holds the result. -/
  balances : ∃ flag : Int, (flag = 0 ∨ flag = 1) ∧
    instruction.Balances before (after.number x) flag ∧
    (x ≠ 0xF → after.number 0xF = flag)
  others : ∀ name, name ≠ x → name ≠ 0xF →
    after.register name = before.register name
  frame : after =
    { before with
      registers := after.registers
      counter := before.counter + 2 }

theorem exists_computes {x y : UInt8} {instruction : Instruction}
    (arithmetic : instruction ∈ flagged x y)
    (namedX : x.toNat < registerCount) (namedY : y.toNat < registerCount)
    {before : State} (fits : before.counter.toNat + 2 < 65536)
    (random : UInt8) :
    ∃ after, instruction.execute random before = .ok after ∧
      instruction.Computes x before after := by
  obtain ⟨value, flag, effect, bit, balance⟩ :=
    exists_effect_eq_setFlagged arithmetic before
  refine ⟨_, execute_flagged arithmetic namedX namedY fits random, ?_⟩
  rw [effect random]
  have result : (before.setFlagged x value flag).number x = value.toNat := by
    rw [State.number, before.register_setFlagged_self namedX]
  constructor
  case balances =>
    refine ⟨flag.toNat, by omega, ?_, ?_⟩
    · rw [← result] at balance
      exact balance
    · intro apart
      exact congrArg (fun byte : UInt8 => (byte.toNat : Int))
        (before.register_setFlagged_flag apart value flag)
  case others =>
    intro name apart unflagged
    exact before.register_setFlagged_of_ne apart.symm unflagged value flag
  case frame => rfl

/-- Instructions with a flag are exact over the integers: from every state with
a next counter they succeed, their result and a flag of zero or one balance
with the operands of the state before, and the flag is kept unless its register
holds the result.  No other register changes and no other part of the state.
So subtracting what was added restores a register, and the flag then tells that
the addition had no carry. -/
theorem flagged_arithmetic_exact :
    (∀ (x y random : UInt8) (before : State),
      x.toNat < registerCount → y.toNat < registerCount →
      before.counter.toNat + 2 < 65536 →
        ∀ instruction ∈ flagged x y, ∃ after,
          instruction.execute random before = .ok after ∧
            instruction.Computes x before after) ∧
      ∀ (x y first second : UInt8) (before : State),
        x.toNat < registerCount → y.toNat < registerCount →
        x ≠ y → x ≠ 0xF → y ≠ 0xF → before.counter.toNat + 4 < 65536 →
          ∃ added restored,
            (add x y).execute first before = .ok added ∧
              (subtract x y).execute second added = .ok restored ∧
              restored.register x = before.register x ∧
              restored.number 0xF = 1 - added.number 0xF := by
  refine ⟨?exact, ?inverse⟩
  case exact =>
    intro x y random before namedX namedY fits instruction arithmetic
    exact exists_computes arithmetic namedX namedY fits random
  case inverse =>
    intro x y first second before namedX namedY apart unflaggedX unflaggedY fits
    have adding : add x y ∈ flagged x y := .head _
    have subtracting : subtract x y ∈ flagged x y := .tail _ (.head _)
    obtain ⟨added, adds, sum⟩ := exists_computes adding namedX namedY
      (by omega : before.counter.toNat + 2 < 65536) first
    have moved : added.counter.toNat = before.counter.toNat + 2 := by
      rw [sum.frame, UInt16.toNat_add]
      simp only [UInt16.reduceToNat]
      omega
    obtain ⟨restored, subtracts, difference⟩ := exists_computes subtracting
      namedX namedY (by omega : added.counter.toNat + 2 < 65536) second
    refine ⟨added, restored, adds, subtracts, ?_⟩
    obtain ⟨carry, carryBit, addition, carried⟩ := sum.balances
    obtain ⟨kept, keptBit, ⟨subtraction, _⟩, told⟩ := difference.balances
    have sameY : added.number y = before.number y :=
      State.number_inj.mpr (sum.others y apart.symm unflaggedY)
    simp only [Balances] at addition
    rw [sameY] at subtraction
    rw [← State.number_inj, told unflaggedX, carried unflaggedX]
    have byteBefore := And.intro (before.number_nonneg x) (before.number_lt x)
    have byteAfter :=
      And.intro (restored.number_nonneg x) (restored.number_lt x)
    omega

/-- Doubling the flag by adding it to itself leaves the sum there, not the
carry. -/
example :
    let before := { State.initial with
      registers := RegisterFile.zero.setFlag 200 }
    ((add 0xF 0xF).execute 0 before).map (State.register · 0xF) = .ok 144 :=
  rfl

end Instruction

end ChipEight
