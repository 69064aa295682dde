import ChipEight.Display.Window
import ChipEight.Proofs.Display.Texture

/-!
# Uploading textures

A texture is copied into a buffer row by row, each row a pitch after the one
before it.  Where no row is longer than the pitch, a row ends before the next
one begins.  So a later row leaves alone what an earlier one put down, and the
bytes between two rows stay what they were before.

Reading the rows back gives the texture again, whatever the pitch.  This is why
a window can say what it shows without speaking of a buffer.
-/

namespace ChipEight

namespace Texture

section Overwriting

variable {buffer next row : List UInt8} {start : Nat}

theorem exists_overwrite_eq_iff :
    (∃ next, overwrite buffer start row = some next) ↔
      start + row.length ≤ buffer.length := by
  unfold overwrite
  by_cases fits : start + row.length ≤ buffer.length
  · simp [fits]
  · simp [fits]

theorem length_overwrite (written : overwrite buffer start row = some next) :
    next.length = buffer.length := by
  have fits := exists_overwrite_eq_iff.mp ⟨next, written⟩
  rw [overwrite, if_pos fits] at written
  cases written
  simp only [List.length_append, List.length_take, List.length_drop]
  omega

/-- Overwriting puts the row where it is told to and changes nothing else. -/
theorem getElem?_overwrite (written : overwrite buffer start row = some next)
    (place : Nat) :
    next[place]? =
      if start ≤ place ∧ place < start + row.length then
        row[place - start]?
      else
        buffer[place]? := by
  have fits := exists_overwrite_eq_iff.mp ⟨next, written⟩
  rw [overwrite, if_pos fits] at written
  cases written
  have before : (buffer.take start).length = start := by
    rw [List.length_take]
    omega
  rw [List.append_assoc]
  by_cases early : place < start
  · rw [List.getElem?_append_left (by omega), List.getElem?_take_of_lt early,
      if_neg (by omega)]
  · rw [List.getElem?_append_right (by omega), before]
    by_cases within : place < start + row.length
    · rw [List.getElem?_append_left (by omega), if_pos ⟨by omega, within⟩]
    · have past : start + row.length + (place - start - row.length) =
          place := by
        omega
      rw [List.getElem?_append_right (by omega), List.getElem?_drop, past,
        if_neg (by omega)]

end Overwriting

section Copying

variable {pitch start : Nat} {rows : List (List UInt8)}
variable {buffer filled : List UInt8}

theorem copyRows_cons_eq_some_iff {row : List UInt8} :
    copyRows pitch start (row :: rows) buffer = some filled ↔
      ∃ next, overwrite buffer start row = some next ∧
        copyRows pitch (start + pitch) rows next = some filled := by
  rw [copyRows]
  cases overwrite buffer start row with
  | none => simp
  | some next => simp

/-- The row after the first begins where the first one of the rest does. -/
theorem start_succ (pitch start index : Nat) :
    start + (index + 1) * pitch = start + pitch + index * pitch := by
  rw [Nat.succ_mul]
  omega

theorem length_copyRows
    (copied : copyRows pitch start rows buffer = some filled) :
    filled.length = buffer.length := by
  induction rows generalizing start buffer with
  | nil =>
      cases copied
      rfl
  | cons row rest ih =>
      obtain ⟨next, written, later⟩ := copyRows_cons_eq_some_iff.mp copied
      rw [ih later, length_overwrite written]

/-- Copying succeeds if every row fits into the buffer, and only then. -/
theorem exists_copyRows_eq_iff :
    (∃ filled, copyRows pitch start rows buffer = some filled) ↔
      ∀ index row, rows[index]? = some row →
        start + index * pitch + row.length ≤ buffer.length := by
  induction rows generalizing start buffer with
  | nil => simp [copyRows]
  | cons row rest ih =>
      constructor
      case mp =>
        rintro ⟨filled, copied⟩ index other found
        obtain ⟨next, written, later⟩ := copyRows_cons_eq_some_iff.mp copied
        cases index with
        | zero =>
            cases found
            simpa using exists_overwrite_eq_iff.mp ⟨next, written⟩
        | succ index =>
            rw [start_succ, ← length_overwrite written]
            exact ih.mp ⟨filled, later⟩ index other found
      case mpr =>
        intro fits
        have first : start + row.length ≤ buffer.length := by
          simpa using fits 0 row rfl
        obtain ⟨next, written⟩ := exists_overwrite_eq_iff.mpr first
        have rest_fits : ∀ index other, rest[index]? = some other →
            start + pitch + index * pitch + other.length ≤ next.length := by
          intro index other found
          rw [← start_succ, length_overwrite written]
          exact fits (index + 1) other found
        obtain ⟨filled, later⟩ := ih.mpr rest_fits
        exact ⟨filled, copyRows_cons_eq_some_iff.mpr ⟨next, written, later⟩⟩

/-- A byte outside of all rows stays what it was. -/
theorem getElem?_copyRows_of_outside
    (copied : copyRows pitch start rows buffer = some filled) {place : Nat}
    (outside : ∀ index row, rows[index]? = some row →
      place < start + index * pitch ∨
        start + index * pitch + row.length ≤ place) :
    filled[place]? = buffer[place]? := by
  induction rows generalizing start buffer with
  | nil =>
      cases copied
      rfl
  | cons row rest ih =>
      obtain ⟨next, written, later⟩ := copyRows_cons_eq_some_iff.mp copied
      have beside : place < start ∨ start + row.length ≤ place := by
        simpa using outside 0 row rfl
      have kept : filled[place]? = next[place]? := by
        apply ih later
        intro index other found
        rw [← start_succ]
        exact outside (index + 1) other found
      rw [kept, getElem?_overwrite written, if_neg (by omega)]

/-- If no row is longer than the pitch, every row ends up in its place, since
the rows behind it begin past its end. -/
theorem getElem?_copyRows (narrow : ∀ row ∈ rows, row.length ≤ pitch)
    (copied : copyRows pitch start rows buffer = some filled)
    {index offset : Nat} {row : List UInt8} (found : rows[index]? = some row)
    (inside : offset < row.length) :
    filled[start + index * pitch + offset]? = row[offset]? := by
  induction rows generalizing start buffer index with
  | nil => cases found
  | cons first rest ih =>
      obtain ⟨next, written, later⟩ := copyRows_cons_eq_some_iff.mp copied
      cases index with
      | zero =>
          cases found
          have short : row.length ≤ pitch := narrow row (List.mem_cons_self ..)
          have kept : filled[start + offset]? = next[start + offset]? := by
            apply getElem?_copyRows_of_outside later
            intro index other found
            left
            calc
              start + offset < start + pitch := by omega
              _ ≤ start + pitch + index * pitch := Nat.le_add_right _ _
          rw [Nat.zero_mul, Nat.add_zero, kept, getElem?_overwrite written,
            if_pos (by omega), Nat.add_sub_cancel_left]
      | succ index =>
          rw [start_succ]
          exact ih (fun other member =>
            narrow other (List.mem_cons_of_mem _ member)) later found

end Copying

/-- Bytes that are made of rows of one width are cut into these rows. -/
theorem rowsOf_flatMap {Item : Type} {parts : Item → List UInt8} {width : Nat}
    (positive : 0 < width) (uniform : ∀ item, (parts item).length = width)
    (items : List Item) :
    rowsOf width (items.flatMap parts) = items.map parts := by
  induction items with
  | nil =>
      rw [rowsOf]
      simp
  | cons item rest ih =>
      have first : (parts item).length = width := uniform item
      have filled : ¬ (width = 0 ∨ parts item ++ rest.flatMap parts = []) := by
        rintro (none | empty)
        · omega
        · rw [List.append_eq_nil_iff] at empty
          rw [empty.1, List.length_nil] at first
          omega
      rw [List.flatMap_cons, rowsOf, if_neg filled, List.take_left' first,
        List.drop_left' first, ih, List.map_cons]

variable (frame : Frame) (palette : Palette)

theorem rowsOf_texture :
    rowsOf textureRowSize (frame.texture palette) =
      (List.finRange 32).map (frame.rowTexture palette) := by
  rw [Frame.texture_eq_flatMap]
  exact rowsOf_flatMap (by decide) (frame.length_rowTexture palette) _

theorem getElem?_rowsOf_texture (row : Fin 32) :
    (rowsOf textureRowSize (frame.texture palette))[row.val]? =
      some (frame.rowTexture palette row) := by
  rw [rowsOf_texture, List.getElem?_map]
  simp

/-- A texture has thirty-two rows and each of them is full. -/
theorem exists_row_of_getElem? {index : Nat} {bytes : List UInt8}
    (found : (rowsOf textureRowSize (frame.texture palette))[index]? =
      some bytes) :
    ∃ row : Fin 32, row.val = index ∧ bytes.length = textureRowSize := by
  have inside : index < 32 := by
    have below := (List.getElem?_eq_some_iff.mp found).1
    rwa [rowsOf_texture, List.length_map, List.length_finRange] at below
  rw [getElem?_rowsOf_texture frame palette ⟨index, inside⟩] at found
  cases found
  exact ⟨⟨index, inside⟩, rfl, frame.length_rowTexture palette _⟩

/-- The buffer has to reach as far as the last row, which needs no padding. -/
theorem exists_upload_eq_iff (pitch : Nat) (buffer : List UInt8) :
    (∃ filled, upload (frame.texture palette) pitch buffer = some filled) ↔
      31 * pitch + textureRowSize ≤ buffer.length := by
  unfold upload
  rw [exists_copyRows_eq_iff]
  constructor
  case mp =>
    intro fits
    have last := fits 31 _ (getElem?_rowsOf_texture frame palette 31)
    rwa [frame.length_rowTexture, Nat.zero_add] at last
  case mpr =>
    intro roomy index bytes found
    obtain ⟨row, rfl, full⟩ := exists_row_of_getElem? frame palette found
    have above : row.val * pitch ≤ 31 * pitch :=
      Nat.mul_le_mul_right pitch (by omega)
    omega

section Uploaded

variable {frame : Frame} {palette : Palette} {pitch : Nat}
variable {buffer filled : List UInt8}

theorem getElem?_upload (wide : textureRowSize ≤ pitch)
    (copied : upload (frame.texture palette) pitch buffer = some filled)
    (row : Fin 32) {offset : Nat} (inside : offset < textureRowSize) :
    filled[row.val * pitch + offset]? =
      (frame.rowTexture palette row)[offset]? := by
  have narrow : ∀ bytes ∈ rowsOf textureRowSize (frame.texture palette),
      bytes.length ≤ pitch := by
    intro bytes member
    obtain ⟨index, found⟩ := List.mem_iff_getElem?.mp member
    obtain ⟨_, _, full⟩ := exists_row_of_getElem? frame palette found
    omega
  have within : offset < (frame.rowTexture palette row).length := by
    rw [frame.length_rowTexture]
    exact inside
  have placed := getElem?_copyRows narrow copied
    (getElem?_rowsOf_texture frame palette row) within
  rwa [Nat.zero_add] at placed

theorem getElem?_upload_of_outside
    (copied : upload (frame.texture palette) pitch buffer = some filled)
    {place : Nat}
    (outside : ∀ row < 32, ∀ offset < textureRowSize,
      place ≠ row * pitch + offset) :
    filled[place]? = buffer[place]? := by
  apply getElem?_copyRows_of_outside copied
  intro index bytes found
  obtain ⟨row, rfl, full⟩ := exists_row_of_getElem? frame palette found
  by_contra reached
  exact outside row.val row.isLt (place - row.val * pitch) (by omega) (by omega)

end Uploaded

/-- A texture is cut into thirty-two full rows, and a buffer that reaches as
far as the last of them takes them all.  Where the pitch is no shorter than a
row, each row then stands whole at its multiple of the pitch, and every other
byte of the buffer is left alone. -/
theorem upload_lays_out_rows (frame : Frame) (palette : Palette) {pitch : Nat}
    {buffer : List UInt8} (wide : textureRowSize ≤ pitch)
    (roomy : 31 * pitch + textureRowSize ≤ buffer.length) :
    (rowsOf textureRowSize (frame.texture palette)).map List.length =
      List.replicate 32 textureRowSize ∧
    ∃ filled, upload (frame.texture palette) pitch buffer = some filled ∧
      filled.length = buffer.length ∧
      (∀ row < 32, ∀ offset < textureRowSize, ∃ byte,
        (frame.texture palette)[textureRowSize * row + offset]? = some byte ∧
        filled[row * pitch + offset]? = some byte) ∧
      ∀ place, (∀ row < 32, ∀ offset < textureRowSize,
          place ≠ row * pitch + offset) →
        filled[place]? = buffer[place]? := by
  obtain ⟨filled, copied⟩ :=
    (exists_upload_eq_iff frame palette pitch buffer).mpr roomy
  refine ⟨?full, filled, copied, length_copyRows copied, ?rows, ?padding⟩
  case full =>
    rw [rowsOf_texture, List.map_map, List.eq_replicate_iff]
    constructor
    · rw [List.length_map, List.length_finRange]
    · intro length member
      obtain ⟨row, _, rfl⟩ := List.mem_map.mp member
      exact frame.length_rowTexture palette row
  case rows =>
    intro row below offset inside
    have within : offset < (frame.rowTexture palette ⟨row, below⟩).length := by
      rw [frame.length_rowTexture]
      exact inside
    have source := frame.getElem?_texture_row palette ⟨row, below⟩ inside
    have target := getElem?_upload wide copied ⟨row, below⟩ inside
    rw [List.getElem?_eq_getElem within] at source target
    exact ⟨_, source, target⟩
  case padding =>
    exact fun place outside => getElem?_upload_of_outside copied outside

/-- With a pitch of 256 there are 64 bytes between two rows.  They are left
alone, and the second row begins after them. -/
theorem upload_lays_out_rows_with_padding :
    let frame := Frame.blank.setCell ⟨1, 0⟩ 1
    let buffer := List.replicate (31 * 256 + 192) (7 : UInt8)
    textureRowSize ≤ 256 ∧ 31 * 256 + textureRowSize ≤ buffer.length ∧
      ∃ filled,
        upload (frame.texture Palette.standard) 256 buffer = some filled ∧
        filled[192]? = some 7 ∧ filled[255]? = some 7 ∧
        filled[256]? = some 255 := by
  intro frame buffer
  have wide : textureRowSize ≤ 256 := by decide
  have roomy : 31 * 256 + textureRowSize ≤ buffer.length := by
    rw [List.length_replicate]
  obtain ⟨_, filled, copied, _, rows, padding⟩ :=
    upload_lays_out_rows frame Palette.standard wide roomy
  have kept : ∀ place, 192 ≤ place → place < 256 →
      filled[place]? = some 7 := by
    intro place past before
    have apart : ∀ row < 32, ∀ offset < textureRowSize,
        place ≠ row * 256 + offset := by
      intro row _ offset (inside : offset < 192)
      omega
    rw [padding place apart]
    exact List.getElem?_replicate_of_lt (by omega)
  have lit : (frame.texture Palette.standard)[192]? = some 255 := by
    have shown :=
      frame.getElem?_texture Palette.standard 1 0 (by decide : 0 < 3)
    rw [Frame.cell_setCell, if_pos rfl] at shown
    exact shown
  obtain ⟨byte, source, target⟩ := rows 1 (by decide) 0 (by decide)
  have same : some byte = some 255 := source.symm.trans lit
  rw [same] at target
  exact ⟨wide, roomy, filled, copied, kept 192 (by decide) (by decide),
    kept 255 (by decide) (by decide), target⟩

/-- The rows of a texture in a buffer, one after another. -/
def readBack (pitch : Nat) (buffer : List UInt8) : List UInt8 :=
  (List.finRange 32).flatMap fun row =>
    (buffer.drop (row.val * pitch)).take textureRowSize

theorem readBack_of_upload {pitch : Nat} {buffer filled : List UInt8}
    (wide : textureRowSize ≤ pitch)
    (copied : upload (frame.texture palette) pitch buffer = some filled) :
    readBack pitch filled = frame.texture palette := by
  rw [Frame.texture_eq_flatMap, readBack]
  congr 1
  funext row
  apply List.ext_getElem?
  intro offset
  by_cases inside : offset < textureRowSize
  · rw [List.getElem?_take_of_lt inside, List.getElem?_drop,
      getElem?_upload wide copied row inside]
  · have full : (frame.rowTexture palette row).length = textureRowSize :=
      frame.length_rowTexture palette row
    rw [List.getElem?_take_eq_none (by omega),
      List.getElem?_eq_none (by omega)]

end Texture

/-- What a window shows is what the buffer holds, whatever its pitch and
whatever the bytes between the rows. -/
theorem Window.blocks_present_of_upload (window : Window) (frame : Frame)
    {pitch : Nat} {buffer filled : List UInt8}
    (wide : textureRowSize ≤ pitch)
    (copied : Texture.upload (frame.texture window.palette) pitch buffer =
      some filled) :
    (window.present frame).blocks =
      Texture.colours (Texture.readBack pitch filled) := by
  rw [Texture.readBack_of_upload frame window.palette wide copied]
  rfl

end ChipEight
