import ChipEight.Instruction
import ChipEight.Word

/-!
# Instruction encoding

The table of instruction words in both directions.  `decode` reads a word;
`encodeWith` writes an instruction whose operands fit.  The two shifts ignore
one digit of their word, so writing them takes the digit to put there.
-/

namespace ChipEight

namespace Instruction

/-- The operations between two registers, named by the last digit. -/
def decodeArithmetic (x y : UInt8) : Nat → Option Instruction
  | 0x0 => some (copy x y)
  | 0x1 => some (union x y)
  | 0x2 => some (intersect x y)
  | 0x3 => some (differ x y)
  | 0x4 => some (add x y)
  | 0x5 => some (subtract x y)
  | 0x6 => some (halve x)
  | 0x7 => some (subtractFrom x y)
  | 0xE => some (double x)
  | _ => none

/-- The operations on one register, named by the low byte. -/
def decodeTransfer (x : UInt8) : Nat → Option Instruction
  | 0x07 => some (readDelay x)
  | 0x0A => some (awaitKey x)
  | 0x15 => some (setDelay x)
  | 0x18 => some (setSound x)
  | 0x1E => some (advanceIndex x)
  | 0x29 => some (findGlyph x)
  | 0x33 => some (storeDecimal x)
  | 0x55 => some (storeRegisters x)
  | 0x65 => some (loadRegisters x)
  | _ => none

/-- The instruction that a word stands for, if any. -/
def decode (word : Word) : Option Instruction :=
  match word.family.toNat with
  | 0x0 =>
    match word.nnn.toNat with
    | 0x0E0 => some clearFrame
    | 0x0EE => some leave
    | _ => none
  | 0x1 => some (jump word.nnn)
  | 0x2 => some (call word.nnn)
  | 0x3 => some (skipIfByte word.x word.nn)
  | 0x4 => some (skipUnlessByte word.x word.nn)
  | 0x5 => if word.n = 0 then some (skipIfEqual word.x word.y) else none
  | 0x6 => some (setByte word.x word.nn)
  | 0x7 => some (addByte word.x word.nn)
  | 0x8 => decodeArithmetic word.x word.y word.n.toNat
  | 0x9 => if word.n = 0 then some (skipUnlessEqual word.x word.y) else none
  | 0xA => some (setIndex word.nnn)
  | 0xB => some (jumpBeyond word.nnn)
  | 0xC => some (random word.x word.nn)
  | 0xD => some (draw word.x word.y word.n)
  | 0xE =>
    match word.nn.toNat with
    | 0x9E => some (skipIfDown word.x)
    | 0xA1 => some (skipUnlessDown word.x)
    | _ => none
  | 0xF => decodeTransfer word.x word.nn.toNat
  | _ => none

/-- A word made of a family and an address. -/
def wordOfAddress (family address : Word) : Word :=
  family * 0x1000 + address

/-- A word made of a family, a register and a low byte. -/
def wordOfByte (family : Word) (x byte : UInt8) : Word :=
  family * 0x1000 + x.toUInt16 * 0x100 + byte.toUInt16

/-- A word made of a family, two registers and a last digit. -/
def wordOfDigits (family : Word) (x y digit : UInt8) : Word :=
  family * 0x1000 + x.toUInt16 * 0x100 + y.toUInt16 * 0x10 + digit.toUInt16

/-- The word of an instruction.  The shifts take `spare` for the digit that
they ignore. -/
def encodeWith (spare : UInt8) : Instruction → Word
  | clearFrame => 0x00E0
  | leave => 0x00EE
  | jump target => wordOfAddress 0x1 target
  | call target => wordOfAddress 0x2 target
  | skipIfByte x constant => wordOfByte 0x3 x constant
  | skipUnlessByte x constant => wordOfByte 0x4 x constant
  | skipIfEqual x y => wordOfDigits 0x5 x y 0x0
  | setByte x constant => wordOfByte 0x6 x constant
  | addByte x constant => wordOfByte 0x7 x constant
  | copy x y => wordOfDigits 0x8 x y 0x0
  | union x y => wordOfDigits 0x8 x y 0x1
  | intersect x y => wordOfDigits 0x8 x y 0x2
  | differ x y => wordOfDigits 0x8 x y 0x3
  | add x y => wordOfDigits 0x8 x y 0x4
  | subtract x y => wordOfDigits 0x8 x y 0x5
  | halve x => wordOfDigits 0x8 x spare 0x6
  | subtractFrom x y => wordOfDigits 0x8 x y 0x7
  | double x => wordOfDigits 0x8 x spare 0xE
  | skipUnlessEqual x y => wordOfDigits 0x9 x y 0x0
  | setIndex address => wordOfAddress 0xA address
  | jumpBeyond base => wordOfAddress 0xB base
  | random x mask => wordOfByte 0xC x mask
  | draw x y height => wordOfDigits 0xD x y height
  | skipIfDown x => wordOfByte 0xE x 0x9E
  | skipUnlessDown x => wordOfByte 0xE x 0xA1
  | readDelay x => wordOfByte 0xF x 0x07
  | awaitKey x => wordOfByte 0xF x 0x0A
  | setDelay x => wordOfByte 0xF x 0x15
  | setSound x => wordOfByte 0xF x 0x18
  | advanceIndex x => wordOfByte 0xF x 0x1E
  | findGlyph x => wordOfByte 0xF x 0x29
  | storeDecimal x => wordOfByte 0xF x 0x33
  | storeRegisters x => wordOfByte 0xF x 0x55
  | loadRegisters x => wordOfByte 0xF x 0x65

/-- Whether the operands of an instruction fit into its word. -/
def Encodable : Instruction → Prop
  | jump address | call address | setIndex address | jumpBeyond address =>
    address.toNat < 0x1000
  | draw x y height =>
    x.toNat < 0x10 ∧ y.toNat < 0x10 ∧ height.toNat < 0x10
  | instruction =>
    ∀ name ∈ instruction.namedRegisters, name.toNat < 0x10

end Instruction

end ChipEight
