import ChipEight.Display.Texture
import ChipEight.Text.Numeral

/-!
# The window

A window shows a frame at a whole scale: every cell becomes a square block of
pixels of one colour.  A window's width has to be below two to the power of
thirty-one, and has to be computable in thirty-two bits at all.
-/

namespace ChipEight

inductive WindowError
  /-- The width in pixels is no number of thirty-two bits. -/
  | widthOverflow
  /-- The width in pixels is more than a window can have. -/
  | tooWide (width : Nat)
  deriving DecidableEq

namespace WindowError

def message : WindowError → String
  | widthOverflow => "attempt to multiply with overflow"
  | tooWide width =>
    "Window width (" ++ String.ofList (Numeral.decimal width) ++
      ") is too high."

end WindowError

/-- A window by the side of its blocks and its colours. -/
structure Window where
  scale : Nat
  palette : Palette
  deriving DecidableEq

/-- What a window shows: blocks of pixels, row by row. -/
structure Picture where
  width : Nat
  height : Nat
  blocks : List Colour
  deriving DecidableEq

namespace Window

/-- Opens a window of a scale. -/
def create (scale : Nat) (palette : Palette) : Except WindowError Window :=
  let width := displayWidth * scale
  if 0x100000000 ≤ width then
    .error .widthOverflow
  else if 0x80000000 ≤ width then
    .error (.tooWide width)
  else
    .ok { scale := scale, palette := palette }

def width (window : Window) : Nat :=
  displayWidth * window.scale

def height (window : Window) : Nat :=
  displayHeight * window.scale

def present (window : Window) (frame : Frame) : Picture :=
  { width := window.width,
    height := window.height,
    blocks := Texture.colours (frame.texture window.palette) }

end Window

end ChipEight
