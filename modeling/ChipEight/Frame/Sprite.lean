import ChipEight.Frame

/-!
# Sprites

A sprite is a column of bytes, each a row of eight pixels with the leftmost in
the high bit.  Drawing one flips the cells under its lit pixels and remembers
whether a lit cell was among them.  Pixels past an edge come back in at the
opposite one.
-/

namespace ChipEight

/-- Whether a pixel of a sprite row is lit; pixel zero is the leftmost. -/
def pixelLit (byte : UInt8) (pixel : Nat) : Bool :=
  byte.toNat.testBit (7 - pixel)

/-- The rows of a sprite and the place of its upper left corner, which may lie
outside the display. -/
structure Sprite where
  rows : List UInt8
  top : UInt8
  left : UInt8
  deriving DecidableEq

namespace Sprite

/-- The cells under the lit pixels of one row, from left to right. -/
def litCells (left : UInt8) (row : Fin 32) (byte : UInt8) : List Position :=
  ((List.range 8).filter (pixelLit byte)).map fun pixel =>
    { row := row, column := Fin.ofNat 64 (left.toNat + pixel) }

/-- The cells under the lit pixels of a sprite, row by row. -/
def lit (sprite : Sprite) : List Position :=
  sprite.rows.zipIdx.flatMap fun (byte, index) =>
    litCells sprite.left (Fin.ofNat 32 (sprite.top.toNat + index)) byte

end Sprite

/-- A frame that is being drawn on, and whether a lit cell was switched off. -/
structure Canvas where
  frame : Frame
  collision : UInt8

namespace Canvas

/-- Flips one cell. -/
def flip (canvas : Canvas) (position : Position) : Canvas :=
  let cell := canvas.frame.cell position
  { frame := canvas.frame.setCell position (cell ^^^ 1),
    collision := canvas.collision ||| (cell &&& 1) }

end Canvas

namespace Frame

/-- Draws a sprite onto a frame. -/
def draw (frame : Frame) (sprite : Sprite) : Canvas :=
  sprite.lit.foldl Canvas.flip { frame := frame, collision := 0 }

end Frame

end ChipEight
