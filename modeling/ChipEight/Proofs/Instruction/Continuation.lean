import ChipEight.Proofs.Instruction.Decoding

/-!
# Where instructions go on

An advance is exact while it stays within a word.  Most instructions simply go
on at the next word, so that executing one that is not refused is to apply its
effect and to advance by two.
-/

namespace ChipEight

namespace Word

theorem advance_of_lt {word : Word} {distance : Nat}
    (fits : word.toNat + distance < 65536) :
    word.advance distance = .ok (word + UInt16.ofNat distance) := by
  rw [advance, if_pos fits]

theorem toNat_of_advance {word next : Word} {distance : Nat}
    (advanced : word.advance distance = .ok next) :
    next.toNat = word.toNat + distance := by
  rw [advance] at advanced
  split at advanced
  · next fits =>
      cases advanced
      have small : distance < 65536 := by omega
      simp [Nat.mod_eq_of_lt small, Nat.mod_eq_of_lt fits]
  · cases advanced

/-- An advance that stays below some word succeeds. -/
theorem exists_advance_eq_ok {word : Word} {distance limit : Nat}
    (below : word.toNat + distance ≤ limit) (small : limit < 65536) :
    ∃ next, word.advance distance = .ok next ∧ next.toNat ≤ limit := by
  have advanced := advance_of_lt (show word.toNat + distance < 65536 by omega)
  exact ⟨_, advanced, by rw [toNat_of_advance advanced]; exact below⟩

end Word

namespace Instruction

/-- Whether an instruction goes on at the next word in every state. -/
def isStraight : Instruction → Bool
  | leave | jump _ | call _ | jumpBeyond _ | awaitKey _ => false
  | skipIfByte _ _ | skipUnlessByte _ _ => false
  | skipIfEqual _ _ | skipUnlessEqual _ _ => false
  | skipIfDown _ | skipUnlessDown _ => false
  | _ => true

theorem continuation_of_isStraight {instruction : Instruction}
    (straight : instruction.isStraight = true) (state : State) :
    instruction.continuation state = state.counter.advance 2 := by
  cases instruction <;> first | rfl | cases straight

theorem continuation_leave (state : State) :
    leave.continuation state = returnTarget state.stack := rfl

theorem continuation_jumpBeyond (state : State) (base : Word) :
    (jumpBeyond base).continuation state =
      base.advance (state.register 0).toNat := rfl

theorem continuation_awaitKey (state : State) (x : UInt8) :
    (awaitKey x).continuation state =
      match state.keypad.lowest? with
      | some _ => state.counter.advance 2
      | none => .ok state.counter := rfl

/-- A straight instruction that is not refused has its effect and advances. -/
theorem execute_of_isStraight {instruction : Instruction}
    (straight : instruction.isStraight = true)
    (encodable : instruction.Encodable) {state : State}
    (accepted : instruction.fault? state = none)
    (fits : state.counter.toNat + 2 < 65536) (random : UInt8) :
    instruction.execute random state =
      .ok { instruction.effect random state with
        counter := state.counter + 2 } := by
  rw [execute_of_encodable encodable, accepted,
    continuation_of_isStraight straight, Word.advance_of_lt fits]
  rfl

end Instruction

end ChipEight
