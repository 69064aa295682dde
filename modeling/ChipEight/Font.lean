import ChipEight.Layout

/-!
# The font

Every machine holds sprites of the sixteen hexadecimal digits.  A glyph is four
pixels wide, in the high digit of its bytes, and five rows tall.
-/

namespace ChipEight

namespace Font

/-- The rows of all glyphs, those of the digit zero first. -/
def bytes : List UInt8 :=
  [0xF0, 0x90, 0x90, 0x90, 0xF0,
    0x20, 0x60, 0x20, 0x20, 0x70,
    0xF0, 0x10, 0xF0, 0x80, 0xF0,
    0xF0, 0x10, 0xF0, 0x10, 0xF0,
    0x90, 0x90, 0xF0, 0x10, 0x10,
    0xF0, 0x80, 0xF0, 0x10, 0xF0,
    0xF0, 0x80, 0xF0, 0x90, 0xF0,
    0xF0, 0x10, 0x20, 0x40, 0x40,
    0xF0, 0x90, 0xF0, 0x90, 0xF0,
    0xF0, 0x90, 0xF0, 0x10, 0xF0,
    0xF0, 0x90, 0xF0, 0x90, 0x90,
    0xE0, 0x90, 0xE0, 0x90, 0xE0,
    0xF0, 0x80, 0x80, 0x80, 0xF0,
    0xE0, 0x90, 0x90, 0x90, 0xE0,
    0xF0, 0x80, 0xF0, 0x80, 0xF0,
    0xF0, 0x80, 0xF0, 0x80, 0x80]

def glyph (digit : Nat) : List UInt8 :=
  (bytes.drop (glyphHeight * digit)).take glyphHeight

/-- The address of the glyph that a byte selects with its low digit. -/
def glyphAddress (byte : UInt8) : Word :=
  fontStart + (byte % 0x10).toUInt16 * 5

/-- The font fills its place in memory. -/
theorem length_bytes : bytes.length = (fontEnd - fontStart).toNat := by
  decide

end Font

end ChipEight
