import ChipEight.Proofs.Instruction.Decoding

/-!
# Encoding and decoding

Words are put together from digits, and the digits of a word that was put
together are the ones that went in.  So decoding the word of an instruction
gives the instruction back, and encoding what a word was decoded to gives the
word back; only the digit that the two shifts ignore has to be supplied.
-/

namespace ChipEight

namespace Word

variable (word : Word)

theorem toNat_family : word.family.toNat = word.toNat / 0x1000 := by
  have := word.toNat_lt
  simp only [family, UInt16.toNat_toUInt8, UInt16.toNat_div,
    UInt16.reduceToNat]
  omega

theorem toNat_x : word.x.toNat = word.toNat / 0x100 % 0x10 := by
  simp only [x, UInt16.toNat_toUInt8, UInt16.toNat_mod, UInt16.toNat_div,
    UInt16.reduceToNat]
  omega

theorem toNat_y : word.y.toNat = word.toNat / 0x10 % 0x10 := by
  simp only [y, UInt16.toNat_toUInt8, UInt16.toNat_mod, UInt16.toNat_div,
    UInt16.reduceToNat]
  omega

theorem toNat_n : word.n.toNat = word.toNat % 0x10 := by
  simp only [n, UInt16.toNat_toUInt8, UInt16.toNat_mod, UInt16.reduceToNat]
  omega

theorem toNat_nn : word.nn.toNat = word.toNat % 0x100 := by
  simp only [nn, UInt16.toNat_toUInt8, UInt16.toNat_mod, UInt16.reduceToNat]
  omega

theorem toNat_nnn : word.nnn.toNat = word.toNat % 0x1000 := by
  simp only [nnn, UInt16.toNat_mod, UInt16.reduceToNat]

/-- A word is read back from the two bytes it is stored as. -/
theorem ofBytes_high_low : ofBytes word.high word.low = word := by
  have small := word.toNat_lt
  rw [← UInt16.toNat_inj]
  simp only [ofBytes, high, low, UInt16.toNat_add, UInt16.toNat_mul,
    UInt8.toNat_toUInt16, UInt16.toNat_toUInt8, UInt16.toNat_div,
    UInt16.reduceToNat]
  omega

end Word

namespace Instruction

section Parts

variable {family : Word} (small : family.toNat < 0x10)

include small

theorem toNat_wordOfAddress {address : Word} (fits : address.toNat < 0x1000) :
    (wordOfAddress family address).toNat =
      family.toNat * 0x1000 + address.toNat := by
  simp only [wordOfAddress, UInt16.toNat_add, UInt16.toNat_mul,
    UInt16.reduceToNat]
  omega

theorem toNat_wordOfByte {x : UInt8} (fits : x.toNat < 0x10) (byte : UInt8) :
    (wordOfByte family x byte).toNat =
      family.toNat * 0x1000 + x.toNat * 0x100 + byte.toNat := by
  have := byte.toNat_lt
  simp only [wordOfByte, UInt16.toNat_add, UInt16.toNat_mul,
    UInt8.toNat_toUInt16, UInt16.reduceToNat]
  omega

theorem toNat_wordOfDigits {x y digit : UInt8} (fitsX : x.toNat < 0x10)
    (fitsY : y.toNat < 0x10) (fitsDigit : digit.toNat < 0x10) :
    (wordOfDigits family x y digit).toNat =
      family.toNat * 0x1000 + x.toNat * 0x100 + y.toNat * 0x10 +
        digit.toNat := by
  simp only [wordOfDigits, UInt16.toNat_add, UInt16.toNat_mul,
    UInt8.toNat_toUInt16, UInt16.reduceToNat]
  omega

theorem parts_wordOfAddress {address : Word} (fits : address.toNat < 0x1000) :
    (wordOfAddress family address).family.toNat = family.toNat ∧
      (wordOfAddress family address).nnn = address := by
  have value := toNat_wordOfAddress small fits
  rw [← UInt16.toNat_inj, Word.toNat_family, Word.toNat_nnn, value]
  omega

theorem parts_wordOfByte {x : UInt8} (fits : x.toNat < 0x10) (byte : UInt8) :
    (wordOfByte family x byte).family.toNat = family.toNat ∧
      (wordOfByte family x byte).x = x ∧
      (wordOfByte family x byte).nn = byte := by
  have value := toNat_wordOfByte small fits byte
  have := byte.toNat_lt
  rw [← UInt8.toNat_inj, ← UInt8.toNat_inj, Word.toNat_family, Word.toNat_x,
    Word.toNat_nn, value]
  omega

theorem parts_wordOfDigits {x y digit : UInt8} (fitsX : x.toNat < 0x10)
    (fitsY : y.toNat < 0x10) (fitsDigit : digit.toNat < 0x10) :
    (wordOfDigits family x y digit).family.toNat = family.toNat ∧
      (wordOfDigits family x y digit).x = x ∧
      (wordOfDigits family x y digit).y = y ∧
      (wordOfDigits family x y digit).n = digit := by
  have value := toNat_wordOfDigits small fitsX fitsY fitsDigit
  rw [← UInt8.toNat_inj, ← UInt8.toNat_inj, ← UInt8.toNat_inj,
    Word.toNat_family, Word.toNat_x, Word.toNat_y, Word.toNat_n, value]
  omega

end Parts

/-! ### The parts of a word make up the word -/

section Whole

variable {word family : Word} (led : word.family.toNat = family.toNat)

include led

theorem wordOfAddress_parts : wordOfAddress family word.nnn = word := by
  have small := word.toNat_lt
  rw [Word.toNat_family] at led
  rw [← UInt16.toNat_inj, toNat_wordOfAddress (by omega) word.toNat_nnn_lt,
    Word.toNat_nnn]
  omega

theorem wordOfByte_parts {byte : UInt8} (ends : word.nn.toNat = byte.toNat) :
    wordOfByte family word.x byte = word := by
  have small := word.toNat_lt
  rw [Word.toNat_family] at led
  rw [← UInt16.toNat_inj, toNat_wordOfByte (by omega) word.toNat_x_lt, ← ends,
    Word.toNat_x, Word.toNat_nn]
  omega

theorem wordOfDigits_parts {digit : UInt8} (ends : word.n.toNat = digit.toNat) :
    wordOfDigits family word.x word.y digit = word := by
  have small := word.toNat_lt
  have last := word.toNat_n_lt
  rw [Word.toNat_family] at led
  rw [← UInt16.toNat_inj, toNat_wordOfDigits (by omega) word.toNat_x_lt
    word.toNat_y_lt (by omega), ← ends, Word.toNat_x, Word.toNat_y,
    Word.toNat_n]
  omega

end Whole

/-- The word of an instruction decodes to the instruction: the family is read
off first, and the operation within it, where there is one, after that. -/
theorem decode_encodeWith {instruction : Instruction}
    (encodable : instruction.Encodable) {spare : UInt8}
    (fitsSpare : spare.toNat < 0x10) :
    decode (instruction.encodeWith spare) = some instruction := by
  have named := named_lt_of_encodable encodable
  cases instruction with
  | clearFrame => exact (by decide : decode 0x00E0 = some clearFrame)
  | leave => exact (by decide : decode 0x00EE = some leave)
  | jump address | call address | setIndex address | jumpBeyond address =>
      rw [encodeWith, decode, (parts_wordOfAddress ?_ encodable).1,
        (parts_wordOfAddress ?_ encodable).2]
      · rfl
      all_goals decide
  | skipIfByte x byte | skipUnlessByte x byte | setByte x byte
  | addByte x byte | random x byte =>
      have fits := named x (.head _)
      rw [encodeWith, decode, (parts_wordOfByte ?_ fits byte).1,
        (parts_wordOfByte ?_ fits byte).2.1,
        (parts_wordOfByte ?_ fits byte).2.2]
      · rfl
      all_goals decide
  | skipIfDown x | skipUnlessDown x | readDelay x | awaitKey x | setDelay x
  | setSound x | advanceIndex x | findGlyph x | storeDecimal x
  | storeRegisters x | loadRegisters x =>
      have fits := named x (.head _)
      rw [encodeWith, decode, (parts_wordOfByte ?_ fits _).1,
        (parts_wordOfByte ?_ fits _).2.1,
        (parts_wordOfByte ?_ fits _).2.2]
      · rfl
      all_goals decide
  | skipIfEqual x y | skipUnlessEqual x y | copy x y | union x y
  | intersect x y | differ x y | add x y | subtract x y | subtractFrom x y =>
      have fitsX := named x (.head _)
      have fitsY := named y (.tail _ (.head _))
      rw [encodeWith, decode, (parts_wordOfDigits ?_ fitsX fitsY ?_).1,
        (parts_wordOfDigits ?_ fitsX fitsY ?_).2.1,
        (parts_wordOfDigits ?_ fitsX fitsY ?_).2.2.1,
        (parts_wordOfDigits ?_ fitsX fitsY ?_).2.2.2]
      · rfl
      all_goals decide
  | halve x | double x =>
      have fitsX := named x (.head _)
      rw [encodeWith, decode,
        (parts_wordOfDigits ?_ fitsX fitsSpare ?_).1,
        (parts_wordOfDigits ?_ fitsX fitsSpare ?_).2.1,
        (parts_wordOfDigits ?_ fitsX fitsSpare ?_).2.2.2]
      · rfl
      all_goals decide
  | draw x y height =>
      obtain ⟨led, first, second, last⟩ :=
        parts_wordOfDigits (show (0xD : Word).toNat < 0x10 by decide)
          encodable.1 encodable.2.1 encodable.2.2
      rw [encodeWith, decode, led, first, second, last]
      rfl

theorem encodeWith_of_decodeArithmetic {word : Word}
    (led : word.family.toNat = 0x8) {instruction : Instruction}
    (decoded : decodeArithmetic word.x word.y word.n.toNat =
      some instruction) :
    instruction.encodeWith word.y = word := by
  generalize last : word.n.toNat = operation at decoded
  unfold decodeArithmetic at decoded
  split at decoded <;> cases decoded <;> exact wordOfDigits_parts led last

theorem encodeWith_of_decodeTransfer {word : Word}
    (led : word.family.toNat = 0xF) {instruction : Instruction}
    (decoded : decodeTransfer word.x word.nn.toNat = some instruction)
    (spare : UInt8) : instruction.encodeWith spare = word := by
  generalize last : word.nn.toNat = operation at decoded
  unfold decodeTransfer at decoded
  split at decoded <;> cases decoded <;> exact wordOfByte_parts led last

/-- What a word decodes to has that word again, with the third digit of the
word where a shift ignores it. -/
theorem encodeWith_of_decode {word : Word} {instruction : Instruction}
    (decoded : decode word = some instruction) :
    instruction.encodeWith word.y = word := by
  unfold decode at decoded
  split at decoded
  case h_1 led =>
      have whole : wordOfAddress 0 word.nnn = word := wordOfAddress_parts led
      split at decoded
      case h_1 rest =>
        cases decoded
        have address : word.nnn = 0x0E0 := UInt16.toNat_inj.mp rest
        rw [← whole, address]
        rfl
      case h_2 rest =>
        cases decoded
        have address : word.nnn = 0x0EE := UInt16.toNat_inj.mp rest
        rw [← whole, address]
        rfl
      case h_3 => cases decoded
  case h_2 led | h_3 led | h_11 led | h_12 led =>
      cases decoded
      exact wordOfAddress_parts led
  case h_4 led | h_5 led | h_7 led | h_8 led | h_13 led =>
      cases decoded
      exact wordOfByte_parts led rfl
  case h_6 led | h_10 led =>
      split at decoded
      case isTrue last =>
        cases decoded
        exact wordOfDigits_parts led (congrArg UInt8.toNat last)
      case isFalse => cases decoded
  case h_9 led => exact encodeWith_of_decodeArithmetic led decoded
  case h_14 led =>
      cases decoded
      exact wordOfDigits_parts led rfl
  case h_15 led =>
      split at decoded
      case h_1 last =>
        cases decoded
        exact wordOfByte_parts led last
      case h_2 last =>
        cases decoded
        exact wordOfByte_parts led last
      case h_3 => cases decoded
  case h_16 led => exact encodeWith_of_decodeTransfer led decoded _
  case h_17 => cases decoded

/-- Decoding inverts encoding in both directions. -/
theorem decode_eq_some_iff {word : Word} {instruction : Instruction} :
    decode word = some instruction ↔
      instruction.Encodable ∧
        ∃ spare : UInt8, spare.toNat < 0x10 ∧
          instruction.encodeWith spare = word := by
  constructor
  · intro decoded
    exact ⟨encodable_of_decode decoded, word.y, word.toNat_y_lt,
      encodeWith_of_decode decoded⟩
  · rintro ⟨encodable, spare, fits, rfl⟩
    exact decode_encodeWith encodable fits

end Instruction

end ChipEight
