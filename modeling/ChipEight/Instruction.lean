import ChipEight.Layout

/-!
# Instructions

The thirty-four instructions with their operands.  Operands are bytes and words
here; an instruction word only has room for smaller ones (see
`ChipEight.Instruction.Encoding`).
-/

namespace ChipEight

/-- An instruction and its operands; `x` and `y` name registers. -/
inductive Instruction
  /-- Makes every cell of the frame unlit. -/
  | clearFrame
  /-- Goes on after the latest call. -/
  | leave
  /-- Goes on at an address. -/
  | jump (target : Word)
  /-- Goes on at an address and remembers where it came from. -/
  | call (target : Word)
  /-- Skips an instruction if Vx holds the constant. -/
  | skipIfByte (x constant : UInt8)
  /-- Skips an instruction unless Vx holds the constant. -/
  | skipUnlessByte (x constant : UInt8)
  /-- Skips an instruction if Vx and Vy are equal. -/
  | skipIfEqual (x y : UInt8)
  /-- Vx becomes the constant. -/
  | setByte (x constant : UInt8)
  /-- Vx grows by the constant and wraps; the flag stays. -/
  | addByte (x constant : UInt8)
  /-- Vx becomes Vy. -/
  | copy (x y : UInt8)
  /-- Vx becomes the union of its bits and those of Vy. -/
  | union (x y : UInt8)
  /-- Vx becomes the intersection of its bits and those of Vy. -/
  | intersect (x y : UInt8)
  /-- Vx flips where Vy has bits. -/
  | differ (x y : UInt8)
  /-- Vx grows by Vy; the flag tells of a carry. -/
  | add (x y : UInt8)
  /-- Vx shrinks by Vy; the flag tells that nothing was borrowed. -/
  | subtract (x y : UInt8)
  /-- Vx is halved; the flag gets the bit that falls out. -/
  | halve (x : UInt8)
  /-- Vx becomes Vy less Vx; the flag tells that nothing was borrowed. -/
  | subtractFrom (x y : UInt8)
  /-- Vx is doubled; the flag gets the bit that falls out. -/
  | double (x : UInt8)
  /-- Skips an instruction unless Vx and Vy are equal. -/
  | skipUnlessEqual (x y : UInt8)
  /-- The index becomes an address. -/
  | setIndex (address : Word)
  /-- Goes on at an address increased by V0. -/
  | jumpBeyond (base : Word)
  /-- Vx becomes a random byte under a mask. -/
  | random (x mask : UInt8)
  /-- Draws a sprite of some rows from memory at Vx and Vy. -/
  | draw (x y height : UInt8)
  /-- Skips an instruction if the key in Vx is held down. -/
  | skipIfDown (x : UInt8)
  /-- Skips an instruction unless the key in Vx is held down. -/
  | skipUnlessDown (x : UInt8)
  /-- Vx becomes the delay timer. -/
  | readDelay (x : UInt8)
  /-- Vx becomes the lowest key held down, which is then released; the
  instruction repeats until there is one. -/
  | awaitKey (x : UInt8)
  /-- The delay timer becomes Vx. -/
  | setDelay (x : UInt8)
  /-- The sound timer becomes Vx. -/
  | setSound (x : UInt8)
  /-- The index grows by Vx and wraps. -/
  | advanceIndex (x : UInt8)
  /-- The index becomes the address of the glyph of a digit in Vx. -/
  | findGlyph (x : UInt8)
  /-- Writes the three decimal digits of Vx to memory. -/
  | storeDecimal (x : UInt8)
  /-- Writes the registers up to Vx to memory. -/
  | storeRegisters (x : UInt8)
  /-- Reads the registers up to Vx from memory. -/
  | loadRegisters (x : UInt8)
  deriving DecidableEq

namespace Instruction

def drawsRandom : Instruction → Bool
  | random _ _ => true
  | _ => false

def awaitsKey : Instruction → Bool
  | awaitKey _ => true
  | _ => false

def namedRegisters : Instruction → List UInt8
  | clearFrame | leave | jump _ | call _ | setIndex _ | jumpBeyond _ => []
  | skipIfByte x _ | skipUnlessByte x _ | setByte x _ | addByte x _
  | halve x | double x | random x _ | skipIfDown x | skipUnlessDown x
  | readDelay x | awaitKey x | setDelay x | setSound x | advanceIndex x
  | findGlyph x | storeDecimal x | storeRegisters x | loadRegisters x => [x]
  | skipIfEqual x y | copy x y | union x y | intersect x y | differ x y
  | add x y | subtract x y | subtractFrom x y | skipUnlessEqual x y
  | draw x y _ => [x, y]

end Instruction

end ChipEight
