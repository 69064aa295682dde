import ChipEight.Display.Palette

/-!
# Textures

A texture is the picture of a frame as bytes: row after row, cell after cell,
three components for each.  To be shown it is copied into a buffer whose rows
may be longer than those of the texture; `upload` does so and fails if a row
does not fit into the buffer.
-/

namespace ChipEight

/-- Bytes of one row of a texture. -/
abbrev textureRowSize : Nat := 192

namespace Frame

/-- The bytes of a frame in the colours of a palette. -/
def texture (frame : Frame) (palette : Palette) : List UInt8 :=
  frame.rows.flatten.flatMap fun cell => (palette.colour cell).components

end Frame

namespace Texture

/-- Cuts bytes into rows of a width; the last row may be shorter. -/
def rowsOf (width : Nat) (bytes : List UInt8) : List (List UInt8) :=
  if width = 0 ∨ bytes = [] then
    []
  else
    bytes.take width :: rowsOf width (bytes.drop width)
termination_by bytes.length
decreasing_by
  rename_i proceed
  have filled : bytes.length ≠ 0 :=
    fun empty => proceed (Or.inr (List.length_eq_zero_iff.mp empty))
  simp only [List.length_drop]
  omega

/-- Puts a row into a buffer at an offset. -/
def overwrite (buffer : List UInt8) (start : Nat) (row : List UInt8) :
    Option (List UInt8) :=
  if start + row.length ≤ buffer.length then
    some (buffer.take start ++ row ++ buffer.drop (start + row.length))
  else
    none

/-- Puts rows into a buffer, each a pitch after the one before it. -/
def copyRows (pitch start : Nat) :
    List (List UInt8) → List UInt8 → Option (List UInt8)
  | [], buffer => some buffer
  | row :: rest, buffer =>
    match overwrite buffer start row with
    | some next => copyRows pitch (start + pitch) rest next
    | none => none

/-- Copies a texture into a buffer with rows of the given pitch. -/
def upload (bytes : List UInt8) (pitch : Nat) (buffer : List UInt8) :
    Option (List UInt8) :=
  copyRows pitch 0 (rowsOf textureRowSize bytes) buffer

/-- The colours of a texture, cell by cell. -/
def colours : List UInt8 → List Colour
  | red :: green :: blue :: rest =>
    { red := red, green := green, blue := blue } :: colours rest
  | _ => []

end Texture

end ChipEight
