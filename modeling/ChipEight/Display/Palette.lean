import ChipEight.Frame

/-!
# Palettes

The two colours a frame is shown in.
-/

namespace ChipEight

structure Colour where
  red : UInt8
  green : UInt8
  blue : UInt8
  deriving DecidableEq

namespace Colour

/-- The components in the order they are stored in. -/
def components (colour : Colour) : List UInt8 :=
  [colour.red, colour.green, colour.blue]

def black : Colour :=
  { red := 0, green := 0, blue := 0 }

def white : Colour :=
  { red := 255, green := 255, blue := 255 }

end Colour

/-- The colours of lit and unlit cells. -/
structure Palette where
  lit : Colour
  unlit : Colour
  deriving DecidableEq

namespace Palette

def standard : Palette :=
  { lit := Colour.white, unlit := Colour.black }

/-- The colour of a cell; every cell but zero is lit. -/
def colour (palette : Palette) (cell : UInt8) : Colour :=
  if cell = 0 then palette.unlit else palette.lit

end Palette

end ChipEight
