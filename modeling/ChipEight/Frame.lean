import ChipEight.Layout

/-!
# The frame buffer

The picture a program draws on, thirty-two rows of sixty-four cells.  A cell is
a byte; a machine that draws on a blank frame only ever holds zeros and ones in
it.  `cell` is the view that drawing is described by.
-/

namespace ChipEight

/-- A row and a column of the display. -/
structure Position where
  row : Fin 32
  column : Fin 64
  deriving DecidableEq

namespace Position

/-- The place of a position when rows are written one after another. -/
def offset (position : Position) : Nat :=
  64 * position.row.val + position.column.val

theorem offset_lt (position : Position) : position.offset < 2048 := by
  have := position.row.isLt
  have := position.column.isLt
  unfold offset
  omega

theorem offset_injective {first second : Position}
    (same : first.offset = second.offset) : first = second := by
  obtain ⟨firstRow, firstColumn⟩ := first
  obtain ⟨secondRow, secondColumn⟩ := second
  have := firstColumn.isLt
  have := secondColumn.isLt
  simp only [offset] at same
  have rows : firstRow = secondRow := Fin.ext (by omega)
  have columns : firstColumn = secondColumn := Fin.ext (by omega)
  rw [rows, columns]

end Position

/-- The cells of a picture, row by row. -/
structure Frame where
  cells : Vector UInt8 2048
  deriving DecidableEq

namespace Frame

def cell (frame : Frame) (position : Position) : UInt8 :=
  frame.cells[position.offset]?.getD 0

def setCell (frame : Frame) (position : Position) (value : UInt8) : Frame :=
  { cells := frame.cells.setIfInBounds position.offset value }

def blank : Frame :=
  { cells := Vector.replicate 2048 0 }

/-- The cells of one row from left to right. -/
def row (frame : Frame) (index : Fin 32) : List UInt8 :=
  (List.finRange 64).map fun column => frame.cell ⟨index, column⟩

/-- The rows from top to bottom. -/
def rows (frame : Frame) : List (List UInt8) :=
  (List.finRange 32).map frame.row

@[simp]
theorem cell_setCell (frame : Frame) (position other : Position)
    (value : UInt8) :
    (frame.setCell position value).cell other =
      if position = other then value else frame.cell other := by
  have inside := other.offset_lt
  simp only [cell, setCell, Vector.getElem?_setIfInBounds]
  by_cases same : position = other
  · simp [same, inside]
  · have apart : position.offset ≠ other.offset :=
      fun equal => same (Position.offset_injective equal)
    simp [same, apart]

@[simp]
theorem cell_blank (position : Position) : blank.cell position = 0 := by
  simp [cell, blank, position.offset_lt]

end Frame

end ChipEight
