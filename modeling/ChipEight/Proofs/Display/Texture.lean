import ChipEight.Display.Texture
import Mathlib.Data.List.FinRange

/-!
# The layout of textures

A texture is a list of rows, a row a list of cells and a cell three bytes, all
of them written one after another.  Since the parts at each level have the same
length, the place of a byte follows from its row, column and component, and a
texture shows of a frame just which of its cells are zero.
-/

namespace ChipEight

section Blocks

variable {Item Part : Type} {parts : Item → List Part} {size : Nat}
variable (uniform : ∀ item, (parts item).length = size)

include uniform

theorem length_flatMap_blocks (items : List Item) :
    (items.flatMap parts).length = size * items.length := by
  induction items with
  | nil => rfl
  | cons item rest ih =>
      rw [List.flatMap_cons, List.length_append, uniform, ih,
        List.length_cons, Nat.mul_succ, Nat.add_comm]

/-- Where all blocks have one size, a part is found by the place of its block
and its own place within the block. -/
theorem getElem?_flatMap_blocks (items : List Item) {place offset : Nat}
    (inside : offset < size) :
    (items.flatMap parts)[size * place + offset]? =
      items[place]?.bind fun item => (parts item)[offset]? := by
  induction items generalizing place with
  | nil => rfl
  | cons item rest ih =>
      have first : (parts item).length = size := uniform item
      rw [List.flatMap_cons]
      cases place with
      | zero =>
          rw [Nat.mul_zero, Nat.zero_add,
            List.getElem?_append_left (by omega)]
          rfl
      | succ place =>
          have later : size * (place + 1) + offset - size =
              size * place + offset := by
            rw [Nat.mul_succ]
            omega
          rw [List.getElem?_append_right (by rw [Nat.mul_succ]; omega), first,
            later, ih]
          rfl

end Blocks

namespace Colour

theorem length_components (colour : Colour) : colour.components.length = 3 :=
  rfl

theorem components_injective : Function.Injective components := by
  rintro ⟨_, _, _⟩ ⟨_, _, _⟩ same
  simpa [components] using same

end Colour

namespace Palette

/-- With two different colours, cells look the same if both or neither of them
are zero. -/
theorem colour_eq_iff {palette : Palette}
    (distinct : palette.lit ≠ palette.unlit) (cell other : UInt8) :
    palette.colour cell = palette.colour other ↔ (cell = 0 ↔ other = 0) := by
  unfold colour
  by_cases first : cell = 0
  · by_cases second : other = 0
    · simp [first, second]
    · simp [first, second, distinct.symm]
  · by_cases second : other = 0
    · simp [first, second, distinct]
    · simp [first, second]

end Palette

namespace Frame

variable (frame : Frame) (palette : Palette)

/-- The bytes of one row of a frame in the colours of a palette. -/
def rowTexture (row : Fin 32) : List UInt8 :=
  (List.finRange 64).flatMap fun column =>
    (palette.colour (frame.cell ⟨row, column⟩)).components

theorem texture_eq_flatMap :
    frame.texture palette =
      (List.finRange 32).flatMap (frame.rowTexture palette) := by
  have byRow : frame.texture palette =
      frame.rows.flatMap fun cells =>
        cells.flatMap fun cell => (palette.colour cell).components := by
    simp only [texture, List.flatMap_def, List.map_flatten,
      List.flatten_flatten, List.map_map, Function.comp_def]
  rw [byRow, rows, List.flatMap_map]
  unfold row rowTexture
  simp only [List.flatMap_map]

theorem length_rowTexture (row : Fin 32) :
    (frame.rowTexture palette row).length = 3 * 64 := by
  unfold rowTexture
  rw [length_flatMap_blocks fun column =>
    (palette.colour (frame.cell ⟨row, column⟩)).length_components]
  rw [List.length_finRange]

theorem length_texture : (frame.texture palette).length = 64 * 32 * 3 := by
  rw [texture_eq_flatMap,
    length_flatMap_blocks (frame.length_rowTexture palette),
    List.length_finRange]

/-- A row of a frame makes up one row of its texture. -/
theorem getElem?_texture_row (row : Fin 32) {offset : Nat}
    (inside : offset < textureRowSize) :
    (frame.texture palette)[textureRowSize * row.val + offset]? =
      (frame.rowTexture palette row)[offset]? := by
  rw [texture_eq_flatMap,
    getElem?_flatMap_blocks (frame.length_rowTexture palette) _ inside]
  simp

theorem getElem?_rowTexture (row : Fin 32) (column : Fin 64) {place : Nat}
    (inside : place < 3) :
    (frame.rowTexture palette row)[3 * column.val + place]? =
      (palette.colour (frame.cell ⟨row, column⟩)).components[place]? := by
  unfold rowTexture
  rw [getElem?_flatMap_blocks (fun column =>
    (palette.colour (frame.cell ⟨row, column⟩)).length_components) _ inside]
  simp

/-- A byte of a texture is the component of a colour that its place says. -/
theorem getElem?_texture (row : Fin 32) (column : Fin 64) {place : Nat}
    (inside : place < 3) :
    (frame.texture palette)[3 * (64 * row.val + column.val) + place]? =
      (palette.colour (frame.cell ⟨row, column⟩)).components[place]? := by
  have whole : 3 * (64 * row.val + column.val) + place =
      textureRowSize * row.val + (3 * column.val + place) := by
    unfold textureRowSize
    omega
  have within : 3 * column.val + place < textureRowSize := by
    unfold textureRowSize
    omega
  rw [whole, frame.getElem?_texture_row palette row within,
    frame.getElem?_rowTexture palette row column inside]

/-- Textures are equal if all cells have the same colours, and only then. -/
theorem texture_eq_iff (frame other : Frame) (palette : Palette) :
    frame.texture palette = other.texture palette ↔
      ∀ position, palette.colour (frame.cell position) =
        palette.colour (other.cell position) := by
  constructor
  case mp =>
    rintro same ⟨row, column⟩
    apply Colour.components_injective
    apply List.ext_getElem?
    intro place
    by_cases inside : place < 3
    · rw [← getElem?_texture frame palette row column inside, same,
        getElem?_texture other palette row column inside]
    · rw [List.getElem?_eq_none (by rw [Colour.length_components]; omega),
        List.getElem?_eq_none (by rw [Colour.length_components]; omega)]
  case mpr =>
    intro same
    rw [texture_eq_flatMap, texture_eq_flatMap]
    unfold rowTexture
    simp only [same]

/-- A texture has three bytes for each of the cells, and the byte at a row, a
column and a component is this component of one of the two colours, that of
unlit cells exactly if the cell is zero.  So under two different colours the
textures of two frames are equal exactly if the frames are zero in the same
cells. -/
theorem texture_lays_out_colours :
    (∀ (frame : Frame) (palette : Palette),
      (frame.texture palette).length = 64 * 32 * 3 ∧
      ∀ (row : Fin 32) (column : Fin 64) (component : Fin 3),
        let colour :=
          if frame.cell ⟨row, column⟩ = 0 then palette.unlit else palette.lit
        (frame.texture palette)[3 * (64 * row.val + column.val) +
            component.val]? =
          some (colour.components.get component)) ∧
    ∀ palette : Palette, palette.lit ≠ palette.unlit →
      ∀ frame other : Frame,
        frame.texture palette = other.texture palette ↔
          ∀ position, frame.cell position = 0 ↔ other.cell position = 0 := by
  refine ⟨?layout, ?cells⟩
  case layout =>
    intro frame palette
    refine ⟨frame.length_texture palette, ?_⟩
    intro row column component colour
    rw [frame.getElem?_texture palette row column component.isLt]
    exact List.getElem?_eq_getElem component.isLt
  case cells =>
    intro palette distinct frame other
    rw [texture_eq_iff]
    exact forall_congr' fun position =>
      Palette.colour_eq_iff distinct (frame.cell position) (other.cell position)

/-- A cell of one and a cell of two look the same. -/
theorem texture_lays_out_colours_of_lit :
    let corner : Position := ⟨0, 0⟩
    Palette.standard.lit ≠ Palette.standard.unlit ∧
      (blank.setCell corner 1).texture Palette.standard =
        (blank.setCell corner 2).texture Palette.standard := by
  intro corner
  have distinct : Palette.standard.lit ≠ Palette.standard.unlit := by decide
  refine ⟨distinct, ?_⟩
  rw [texture_lays_out_colours.2 Palette.standard distinct]
  intro position
  rw [cell_setCell, cell_setCell]
  split <;> simp

end Frame

end ChipEight
