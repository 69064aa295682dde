import ChipEight.Proofs.Frame.Drawing
import ChipEight.Proofs.Instruction.Changes
import ChipEight.Proofs.Instruction.Continuation

/-!
# What a draw does to every cell

A draw goes over the rows of its sprite and over the pixels of each row, and
flips cells of the frame it is looking at.  Seen from a cell there is no order:
the distance of the cell from the corner of the sprite, around the edges of the
display, names one byte of memory and one bit of it, and that bit is what the
cell is combined with.
-/

namespace ChipEight

namespace Instruction

/-- Whether a draw has a lit pixel for a position: the position lies so many
rows below and so many columns right of the corner, around the edges. -/
def lights (state : State) (x y height : UInt8) (position : Position) : Bool :=
  let row := ((position.row.val : Int) - (state.register y).toNat) % 32
  let column := ((position.column.val : Int) - (state.register x).toNat) % 64
  decide (row < height.toNat ∧ column < 8) &&
    pixelLit (state.memory.byte (state.index.toNat + row.toNat)) column.toNat

theorem rowAt_sprite (state : State) (x y height : UInt8)
    (position : Position) :
    ((sprite state x y height).rowAt position : Int) =
      ((position.row.val : Int) - (state.register y).toNat) % 32 := by
  simp only [Sprite.rowAt, sprite]
  omega

theorem pixelAt_sprite (state : State) (x y height : UInt8)
    (position : Position) :
    ((sprite state x y height).pixelAt position : Int) =
      ((position.column.val : Int) - (state.register x).toNat) % 64 := by
  simp only [Sprite.pixelAt, sprite]
  omega

/-- A sprite covers what a draw of it lights: its rows are the bytes of memory
from the index on, and past the last of them it covers nothing. -/
theorem covers_sprite (state : State) (x y height : UInt8)
    (position : Position) :
    (sprite state x y height).covers position =
      lights state x y height position := by
  rw [lights, ← rowAt_sprite state x y height,
    ← pixelAt_sprite state x y height]
  simp only [Sprite.covers, Int.toNat_natCast]
  generalize (sprite state x y height).rowAt position = row
  generalize (sprite state x y height).pixelAt position = pixel
  have narrow : (pixel : Int) < 8 ↔ pixel < 8 := by omega
  by_cases inside : row < height.toNat
  · have found : (sprite state x y height).rows[row]? =
        some (state.memory.byte (state.index.toNat + row)) :=
      state.memory.getElem?_slice inside
    rw [found]
    simp [inside, narrow]
  · have missing : (sprite state x y height).rows[row]? = none := by
      rw [List.getElem?_eq_none]
      simpa [sprite] using inside
    rw [missing]
    simp [inside]

theorem length_sprite_le {height : UInt8} (small : height.toNat ≤ 15)
    (state : State) (x y : UInt8) :
    (sprite state x y height).rows.length ≤ 32 := by
  simp only [sprite, Memory.length_slice]
  omega

/-- A draw that succeeds combines every cell with the pixel that falls on it,
wherever the corner of the sprite lies.  The flag becomes one if a lit pixel
fell on an odd cell and zero otherwise, even if it told where to draw; the
frame is to be shown, the counter advances by one instruction, and nothing else
changes. -/
theorem draw_flips_pointwise {x y height random : UInt8} {before after : State}
    (small : height.toNat ≤ 15)
    (drawn : (draw x y height).execute random before = .ok after) :
    let lit := lights before x y height
    (∀ position, after.frame.cell position =
        before.frame.cell position ^^^ (if lit position then 1 else 0)) ∧
      ((∃ position, lit position = true ∧
            (before.frame.cell position).toNat % 2 = 1) →
          after.register 0xF = 1) ∧
      ((¬ ∃ position, lit position = true ∧
            (before.frame.cell position).toNat % 2 = 1) →
          after.register 0xF = 0) ∧
      (∀ name, name ≠ 0xF → after.register name = before.register name) ∧
      after.counter.toNat = before.counter.toNat + 2 ∧
      after = { before with
        registers := after.registers
        counter := after.counter
        frame := after.frame
        redraw := true } := by
  intro lit
  obtain ⟨_, _, counter, continues, rfl⟩ := success_of_execute drawn
  have short := length_sprite_le small before x y
  have flag : ∀ value, (before.setRegister 0xF value).register 0xF = value :=
    before.register_setRegister_self (by decide)
  obtain ⟨collides, misses⟩ := before.frame.collision_draw short
  simp only [covers_sprite] at collides misses
  refine ⟨?cells, ?collision, ?clean, ?registers, ?counter, rfl⟩
  case cells =>
    intro position
    have flipped := before.frame.cell_draw short position
    rw [covers_sprite] at flipped
    exact flipped
  case collision =>
    intro met
    exact (flag _).trans (collides met)
  case clean =>
    intro unmet
    exact (flag _).trans (misses unmet)
  case registers =>
    intro name unflagged
    exact before.register_setRegister_of_ne unflagged.symm _
  case counter =>
    rw [continuation_of_isStraight rfl] at continues
    exact Word.toNat_of_advance continues

/-- A zero is drawn around the lower right corner, its column taken from the
flag.  Its first pixel falls on a cell that holds a three, and the last one of
its second row comes in at the left edge of the first line. -/
theorem draw_flips_pointwise_around_corner :
    let registers := (RegisterFile.zero.setFlag 62).set 1 31
    let before := { State.initial with
      index := 0x50
      registers := registers
      frame := Frame.blank.setCell ⟨31, 62⟩ 3 }
    ∃ after, (5 : UInt8).toNat ≤ 15 ∧
      (draw 0xF 1 5).execute 0 before = .ok after ∧
        after.frame.cell ⟨31, 62⟩ = 2 ∧ after.frame.cell ⟨0, 1⟩ = 1 ∧
          after.frame.cell ⟨0, 0⟩ = 0 ∧ after.register 0xF = 1 := by
  intro registers before
  have small : (5 : UInt8).toNat ≤ 15 := by decide
  have drawn : (draw 0xF 1 5).execute 0 before = .ok _ := rfl
  obtain ⟨cells, collides, _⟩ := draw_flips_pointwise small drawn
  have lit : [⟨31, 62⟩, ⟨0, 1⟩, ⟨0, 0⟩].map (lights before 0xF 1 5) =
      [true, true, false] := by decide +kernel
  simp only [List.map_cons, List.map_nil, List.cons.injEq] at lit
  obtain ⟨corner, edge, inner, _⟩ := lit
  have held : before.frame.cell ⟨31, 62⟩ = 3 := by simp [before]
  refine ⟨_, small, drawn, ?_, ?_, ?_, collides ⟨_, corner, by rw [held]; rfl⟩⟩
  · rw [cells, corner, held]
    rfl
  · rw [cells, edge]
    simp [before]
  · rw [cells, inner]
    simp [before]

end Instruction

end ChipEight
