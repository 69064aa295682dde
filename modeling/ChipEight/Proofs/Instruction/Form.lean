import ChipEight.Proofs.Instruction.Encoding

/-!
# Forms of instruction words

Each kind of instruction fixes some digits of its word and leaves the others to
operands.  A word decodes to an instruction exactly if it has the form of its
kind, and no word has the forms of two kinds.
-/

namespace ChipEight

/-- The digits that are the same in all words of a kind of instruction. -/
structure Form where
  first : UInt8
  second : Option UInt8
  third : Option UInt8
  fourth : Option UInt8
  deriving DecidableEq

namespace Form

/-- A form that fixes the first digit. -/
def family (first : UInt8) : Form :=
  ⟨first, none, none, none⟩

/-- A form that fixes the first digit and the last. -/
def operation (first fourth : UInt8) : Form :=
  ⟨first, none, none, some fourth⟩

/-- A form that fixes all digits but the second. -/
def transfer (first third fourth : UInt8) : Form :=
  ⟨first, none, some third, some fourth⟩

/-- Whether a word has all the digits that a form fixes. -/
structure Matches (form : Form) (word : Word) : Prop where
  first : word.family = form.first
  second : ∀ digit, form.second = some digit → word.x = digit
  third : ∀ digit, form.third = some digit → word.y = digit
  fourth : ∀ digit, form.fourth = some digit → word.n = digit

end Form

namespace Word

variable {word : Word} {second third fourth : UInt8}

theorem nn_of_digits (upper : word.y = third) (lower : word.n = fourth) :
    word.nn.toNat = third.toNat * 0x10 + fourth.toNat := by
  rw [← upper, ← lower, toNat_nn, toNat_y, toNat_n]
  omega

theorem nnn_of_digits (first : word.x = second) (upper : word.y = third)
    (lower : word.n = fourth) :
    word.nnn.toNat =
      second.toNat * 0x100 + third.toNat * 0x10 + fourth.toNat := by
  rw [← first, ← upper, ← lower, toNat_nnn, toNat_x, toNat_y, toNat_n]
  omega

end Word

namespace Instruction

/-- The form of the words of an instruction. -/
def form : Instruction → Form
  | clearFrame => ⟨0x0, some 0x0, some 0xE, some 0x0⟩
  | leave => ⟨0x0, some 0x0, some 0xE, some 0xE⟩
  | jump _ => .family 0x1
  | call _ => .family 0x2
  | skipIfByte _ _ => .family 0x3
  | skipUnlessByte _ _ => .family 0x4
  | skipIfEqual _ _ => .operation 0x5 0x0
  | setByte _ _ => .family 0x6
  | addByte _ _ => .family 0x7
  | copy _ _ => .operation 0x8 0x0
  | union _ _ => .operation 0x8 0x1
  | intersect _ _ => .operation 0x8 0x2
  | differ _ _ => .operation 0x8 0x3
  | add _ _ => .operation 0x8 0x4
  | subtract _ _ => .operation 0x8 0x5
  | halve _ => .operation 0x8 0x6
  | subtractFrom _ _ => .operation 0x8 0x7
  | double _ => .operation 0x8 0xE
  | skipUnlessEqual _ _ => .operation 0x9 0x0
  | setIndex _ => .family 0xA
  | jumpBeyond _ => .family 0xB
  | random _ _ => .family 0xC
  | draw _ _ _ => .family 0xD
  | skipIfDown _ => .transfer 0xE 0x9 0xE
  | skipUnlessDown _ => .transfer 0xE 0xA 0x1
  | readDelay _ => .transfer 0xF 0x0 0x7
  | awaitKey _ => .transfer 0xF 0x0 0xA
  | setDelay _ => .transfer 0xF 0x1 0x5
  | setSound _ => .transfer 0xF 0x1 0x8
  | advanceIndex _ => .transfer 0xF 0x1 0xE
  | findGlyph _ => .transfer 0xF 0x2 0x9
  | storeDecimal _ => .transfer 0xF 0x3 0x3
  | storeRegisters _ => .transfer 0xF 0x5 0x5
  | loadRegisters _ => .transfer 0xF 0x6 0x5

/-- Whether two instructions differ in their operands at most. -/
def SameKind (instruction other : Instruction) : Prop :=
  instruction.ctorIdx = other.ctorIdx

end Instruction

namespace Form

variable {word : Word}

theorem matches_family_iff {first : UInt8} :
    (family first).Matches word ↔ word.family.toNat = first.toNat := by
  rw [UInt8.toNat_inj]
  constructor
  · exact fun fixed => fixed.first
  · intro led
    exact ⟨led, nofun, nofun, nofun⟩

theorem matches_operation_iff {first fourth : UInt8} :
    (operation first fourth).Matches word ↔
      word.family.toNat = first.toNat ∧ word.n = fourth := by
  rw [UInt8.toNat_inj]
  constructor
  · exact fun fixed => ⟨fixed.first, fixed.fourth _ rfl⟩
  · rintro ⟨led, last⟩
    refine ⟨led, nofun, nofun, ?_⟩
    rintro _ ⟨rfl⟩
    exact last

theorem matches_transfer_iff {first third fourth byte : UInt8}
    (upper : byte.toNat / 0x10 = third.toNat)
    (lower : byte.toNat % 0x10 = fourth.toNat) :
    (transfer first third fourth).Matches word ↔
      word.family.toNat = first.toNat ∧ word.nn = byte := by
  have small := byte.toNat_lt
  have parts : word.nn = byte ↔ word.y = third ∧ word.n = fourth := by
    simp only [← UInt8.toNat_inj, Word.toNat_nn, Word.toNat_y, Word.toNat_n]
    omega
  rw [parts, UInt8.toNat_inj]
  constructor
  · exact fun fixed => ⟨fixed.first, fixed.third _ rfl, fixed.fourth _ rfl⟩
  · rintro ⟨led, upperDigit, lowerDigit⟩
    refine ⟨led, nofun, ?_, ?_⟩
    · rintro _ ⟨rfl⟩
      exact upperDigit
    · rintro _ ⟨rfl⟩
      exact lowerDigit

end Form

namespace Instruction

variable {word : Word}

/-- A word of the form of an instruction decodes to one of its kind. -/
theorem exists_decode_of_matches {instruction : Instruction}
    (fixed : instruction.form.Matches word) :
    ∃ decoded, decode word = some decoded ∧ decoded.SameKind instruction := by
  cases instruction with
  | clearFrame | leave =>
      have address := Word.nnn_of_digits (fixed.second _ rfl)
        (fixed.third _ rfl) (fixed.fourth _ rfl)
      rw [decode, fixed.first, address]
      exact ⟨_, rfl, rfl⟩
  | jump _ | call _ | skipIfByte _ _ | skipUnlessByte _ _ | setByte _ _
  | addByte _ _ | setIndex _ | jumpBeyond _ | random _ _ | draw _ _ _ =>
      rw [decode, fixed.first]
      exact ⟨_, rfl, rfl⟩
  | skipIfEqual _ _ | copy _ _ | union _ _ | intersect _ _ | differ _ _
  | add _ _ | subtract _ _ | halve _ | subtractFrom _ _ | double _
  | skipUnlessEqual _ _ =>
      rw [decode, fixed.first, fixed.fourth _ rfl]
      exact ⟨_, rfl, rfl⟩
  | skipIfDown _ | skipUnlessDown _ | readDelay _ | awaitKey _ | setDelay _
  | setSound _ | advanceIndex _ | findGlyph _ | storeDecimal _
  | storeRegisters _ | loadRegisters _ =>
      have byte := Word.nn_of_digits (fixed.third _ rfl) (fixed.fourth _ rfl)
      rw [decode, fixed.first, byte]
      exact ⟨_, rfl, rfl⟩

theorem matches_of_decode {instruction : Instruction}
    (decoded : decode word = some instruction) :
    instruction.form.Matches word := by
  obtain ⟨encodable, spare, fitsSpare, rfl⟩ := decode_eq_some_iff.mp decoded
  have named := named_lt_of_encodable encodable
  cases instruction with
  | clearFrame | leave =>
      rw [encodeWith]
      refine ⟨by decide, ?_, ?_, ?_⟩
      all_goals
        rintro _ ⟨rfl⟩
        decide
  | jump address | call address | setIndex address | jumpBeyond address =>
      exact Form.matches_family_iff.mpr
        (parts_wordOfAddress (by decide) encodable).1
  | skipIfByte x byte | skipUnlessByte x byte | setByte x byte
  | addByte x byte | random x byte =>
      have fits := named x (.head _)
      exact Form.matches_family_iff.mpr
        (parts_wordOfByte (by decide) fits byte).1
  | draw x y height =>
      exact Form.matches_family_iff.mpr
        (parts_wordOfDigits (by decide) encodable.1 encodable.2.1
          encodable.2.2).1
  | skipIfEqual x y | skipUnlessEqual x y | copy x y | union x y
  | intersect x y | differ x y | add x y | subtract x y | subtractFrom x y =>
      have fitsX := named x (.head _)
      have fitsY := named y (.tail _ (.head _))
      rw [form, Form.matches_operation_iff, encodeWith,
        (parts_wordOfDigits ?_ fitsX fitsY ?_).1,
        (parts_wordOfDigits ?_ fitsX fitsY ?_).2.2.2]
      · exact ⟨rfl, rfl⟩
      all_goals decide
  | halve x | double x =>
      have fitsX := named x (.head _)
      rw [form, Form.matches_operation_iff, encodeWith,
        (parts_wordOfDigits ?_ fitsX fitsSpare ?_).1,
        (parts_wordOfDigits ?_ fitsX fitsSpare ?_).2.2.2]
      · exact ⟨rfl, rfl⟩
      all_goals decide
  | skipIfDown x | skipUnlessDown x | readDelay x | awaitKey x | setDelay x
  | setSound x | advanceIndex x | findGlyph x | storeDecimal x
  | storeRegisters x | loadRegisters x =>
      have fits := named x (.head _)
      rw [encodeWith]
      apply (Form.matches_transfer_iff ?_ ?_).mpr
      · exact ⟨(parts_wordOfByte (by decide) fits _).1,
          (parts_wordOfByte (by decide) fits _).2.2⟩
      all_goals decide

/-- No word has the forms of two kinds of instructions. -/
theorem sameKind_of_matches {instruction other : Instruction}
    (fixed : instruction.form.Matches word) (alike : other.form.Matches word) :
    other.SameKind instruction := by
  obtain ⟨decoded, found, kind⟩ := exists_decode_of_matches fixed
  obtain ⟨same, foundSame, otherKind⟩ := exists_decode_of_matches alike
  cases found.symm.trans foundSame
  exact otherKind.symm.trans kind

/-- Exactly the words without any form do not decode. -/
theorem decode_eq_none_iff :
    decode word = none ↔
      ∀ instruction : Instruction, ¬ instruction.form.Matches word := by
  constructor
  · intro undecoded instruction fixed
    obtain ⟨decoded, found, _⟩ := exists_decode_of_matches fixed
    cases undecoded.symm.trans found
  · intro formless
    cases decoded : decode word with
    | none => rfl
    | some instruction =>
        exact absurd (matches_of_decode decoded) (formless instruction)

end Instruction

end ChipEight
