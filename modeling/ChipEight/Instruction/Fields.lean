import ChipEight.Instruction
import ChipEight.Text.Numeral

/-!
# Instructions with named fields

A second text form of instructions, for diagnosis: a tag and, in braces, every
operand by name and in decimal.
-/

namespace ChipEight

/-- A tag with named numbers. -/
structure TaggedFields where
  tag : String
  fields : List (String × Nat)
  deriving DecidableEq

namespace TaggedFields

def fieldText (field : String × Nat) : String :=
  field.1 ++ ": " ++ String.ofList (Numeral.decimal field.2)

/-- The tag alone, or the tag with its fields in braces. -/
def text (tagged : TaggedFields) : String :=
  match tagged.fields with
  | [] => tagged.tag
  | fields =>
    tagged.tag ++ " \x7b " ++ String.intercalate ", " (fields.map fieldText) ++
      " \x7d"

def withRegister (tag : String) (x : UInt8) : TaggedFields :=
  ⟨tag, [("x", x.toNat)]⟩

def withByte (tag : String) (x constant : UInt8) : TaggedFields :=
  ⟨tag, [("x", x.toNat), ("nn", constant.toNat)]⟩

def withRegisters (tag : String) (x y : UInt8) : TaggedFields :=
  ⟨tag, [("x", x.toNat), ("y", y.toNat)]⟩

def withAddress (tag : String) (address : Word) : TaggedFields :=
  ⟨tag, [("nnn", address.toNat)]⟩

end TaggedFields

namespace Instruction

open TaggedFields

/-- The tag and the fields of an instruction. -/
def taggedFields : Instruction → TaggedFields
  | clearFrame => ⟨"Clear", []⟩
  | leave => ⟨"Return", []⟩
  | jump target => withAddress "Jump" target
  | call target => withAddress "Call" target
  | skipIfByte x constant => withByte "SkipEqN" x constant
  | skipUnlessByte x constant => withByte "SkipNeN" x constant
  | skipIfEqual x y => withRegisters "SkipEqV" x y
  | setByte x constant => withByte "LoadN" x constant
  | addByte x constant => withByte "AddN" x constant
  | copy x y => withRegisters "Move" x y
  | union x y => withRegisters "Or" x y
  | intersect x y => withRegisters "And" x y
  | differ x y => withRegisters "Xor" x y
  | add x y => withRegisters "AddC" x y
  | subtract x y => withRegisters "SubB" x y
  | halve x => withRegister "Shr" x
  | subtractFrom x y => withRegisters "SubBRev" x y
  | double x => withRegister "Shl" x
  | skipUnlessEqual x y => withRegisters "SkipNeV" x y
  | setIndex address => withAddress "LoadI" address
  | jumpBeyond base => withAddress "JumpOffset" base
  | random x mask => withByte "Rand" x mask
  | draw x y height =>
    ⟨"Draw", [("x", x.toNat), ("y", y.toNat), ("n", height.toNat)]⟩
  | skipIfDown x => withRegister "SkipKeyDown" x
  | skipUnlessDown x => withRegister "SkipKeyUp" x
  | readDelay x => withRegister "ReadDelay" x
  | awaitKey x => withRegister "WaitKey" x
  | setDelay x => withRegister "WriteDelay" x
  | setSound x => withRegister "WriteSound" x
  | advanceIndex x => withRegister "AddIndex" x
  | findGlyph x => withRegister "LoadFont" x
  | storeDecimal x => withRegister "StoreBcd" x
  | storeRegisters x => withRegister "StoreRegs" x
  | loadRegisters x => withRegister "LoadRegs" x

end Instruction

end ChipEight
