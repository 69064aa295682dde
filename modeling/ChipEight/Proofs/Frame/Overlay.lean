import Mathlib.Algebra.BigOperators.Ring.Nat
import ChipEight.Proofs.Frame.Drawing

/-!
# Drawing one sprite over another

A lit pixel flips the cell it falls on, so what several sprites leave of a cell
depends on how many of them cover it and on nothing else: not on their order,
and not on which of them came at what time.  Sprites whose corners differ by a
multiple of the size of the display cover the same cells.  Drawn an even number
of times each, sprites leave no trace.
-/

namespace ChipEight

namespace Position

theorem exists_offset_eq {place : Nat} (inside : place < 2048) :
    ∃ position : Position, position.offset = place := by
  refine ⟨⟨⟨place / 64, by omega⟩, ⟨place % 64, by omega⟩⟩, ?_⟩
  simp only [offset]
  omega

end Position

namespace Sprite

/-- A sprite with its upper left corner brought onto the display. -/
def wrapped (sprite : Sprite) : Sprite :=
  { sprite with top := sprite.top % 32, left := sprite.left % 64 }

/-- A sprite covers what it covers from within the display. -/
@[simp]
theorem covers_wrapped (sprite : Sprite) :
    sprite.wrapped.covers = sprite.covers := by
  funext position
  have row : sprite.wrapped.rowAt position = sprite.rowAt position := by
    simp [rowAt, wrapped]
  have pixel : sprite.wrapped.pixelAt position = sprite.pixelAt position := by
    simp [pixelAt, wrapped]
  rw [covers, row, pixel]
  rfl

theorem covers_eq_of_wrapped_eq {first second : Sprite}
    (same : first.wrapped = second.wrapped) : first.covers = second.covers := by
  rw [← covers_wrapped first, same, covers_wrapped]

/-- How many of some sprites cover a position. -/
def coverage (sprites : List Sprite) (position : Position) : Nat :=
  sprites.countP fun sprite => sprite.covers position

theorem coverage_eq_countP_wrapped (sprites : List Sprite)
    (position : Position) :
    coverage sprites position =
      (sprites.map wrapped).countP fun sprite => sprite.covers position := by
  simp [coverage, List.countP_map, Function.comp_def]

/-- How often a position is covered does not depend on the order of the
sprites. -/
theorem coverage_eq_of_perm {first second : List Sprite}
    (same : (first.map wrapped).Perm (second.map wrapped))
    (position : Position) :
    coverage first position = coverage second position := by
  rw [coverage_eq_countP_wrapped, coverage_eq_countP_wrapped, same.countP_eq]

/-- Sprites that occur an even number of times each cover every position an
even number of times. -/
theorem even_coverage {sprites : List Sprite}
    (even : ∀ sprite, Even ((sprites.map wrapped).count sprite))
    (position : Position) : Even (coverage sprites position) := by
  have summed := Finset.sum_filter_count_eq_countP
    (fun sprite : Sprite => sprite.covers position = true)
    (sprites.map wrapped)
  simp only [Bool.decide_eq_true] at summed
  rw [coverage_eq_countP_wrapped, ← summed]
  exact Finset.even_sum _ fun sprite _ => even sprite

end Sprite

namespace Frame

/-- Frames are the same if their cells are. -/
theorem eq_of_cell_eq {first second : Frame}
    (same : ∀ position, first.cell position = second.cell position) :
    first = second := by
  obtain ⟨firstCells⟩ := first
  obtain ⟨secondCells⟩ := second
  congr 1
  apply Vector.ext
  intro place inside
  obtain ⟨position, rfl⟩ := Position.exists_offset_eq inside
  simpa [cell, inside] using same position

/-- The frame after some sprites were drawn onto it in order. -/
def drawAll (frame : Frame) (sprites : List Sprite) : Frame :=
  sprites.foldl (fun current sprite => (current.draw sprite).frame) frame

theorem drawAll_append (frame : Frame) (first second : List Sprite) :
    frame.drawAll (first ++ second) = (frame.drawAll first).drawAll second :=
  List.foldl_append

/-- Sprites flip the cells that an odd number of them cover. -/
theorem cell_drawAll (frame : Frame) {sprites : List Sprite}
    (short : ∀ sprite ∈ sprites, sprite.rows.length ≤ 32)
    (position : Position) :
    (frame.drawAll sprites).cell position =
      frame.cell position ^^^
        (if Sprite.coverage sprites position % 2 = 1 then 1 else 0) := by
  induction sprites generalizing frame with
  | nil => simp [drawAll, Sprite.coverage]
  | cons sprite rest ih =>
      obtain ⟨firstShort, restShort⟩ := List.forall_mem_cons.mp short
      have counted : Sprite.coverage (sprite :: rest) position =
          Sprite.coverage rest position +
            if sprite.covers position then 1 else 0 :=
        List.countP_cons
      have drawn := ih (frame.draw sprite).frame restShort
      rw [cell_draw frame firstShort, UInt8.xor_assoc] at drawn
      rw [counted]
      refine drawn.trans (congrArg (frame.cell position ^^^ ·) ?_)
      cases sprite.covers position with
      | false => simp
      | true =>
          obtain even | odd :=
            Nat.mod_two_eq_zero_or_one (Sprite.coverage rest position)
          · simp [even, Nat.add_mod]
          · simp [odd, Nat.add_mod]

/-- What sprites leave of a frame is decided by the parity of how often they
cover each position. -/
theorem drawAll_eq_of_coverage (frame : Frame) {first second : List Sprite}
    (firstShort : ∀ sprite ∈ first, sprite.rows.length ≤ 32)
    (secondShort : ∀ sprite ∈ second, sprite.rows.length ≤ 32)
    (same : ∀ position, Sprite.coverage first position % 2 =
      Sprite.coverage second position % 2) :
    frame.drawAll first = frame.drawAll second := by
  apply eq_of_cell_eq
  intro position
  rw [cell_drawAll frame firstShort, cell_drawAll frame secondShort,
    same position]

/-- On a frame of zeros and ones, drawing a sprite once more collides exactly
if it fell on an unlit cell before. -/
theorem collision_draw_again {frame : Frame} (binary : frame.IsBinary)
    {sprite again : Sprite} (short : sprite.rows.length ≤ 32)
    (shortAgain : again.rows.length ≤ 32)
    (same : again.wrapped = sprite.wrapped) :
    ((frame.draw sprite).frame.draw again).collision = 1 ↔
      ∃ position, sprite.covers position = true ∧
        frame.cell position = 0 := by
  obtain ⟨meets, misses⟩ :=
    (frame.draw sprite).frame.collision_draw shortAgain
  have turned : (∃ position, again.covers position = true ∧
        ((frame.draw sprite).frame.cell position).toNat % 2 = 1) ↔
      ∃ position, sprite.covers position = true ∧
        frame.cell position = 0 := by
    rw [Sprite.covers_eq_of_wrapped_eq same]
    refine exists_congr fun position => and_congr_right fun covered => ?_
    rw [cell_draw frame short, if_pos covered]
    obtain unlit | lit := binary position
    · simp [unlit]
    · simp [lit]
  rw [turned] at meets misses
  refine ⟨fun collides => ?_, meets⟩
  by_contra unmet
  rw [misses unmet] at collides
  cases collides

end Frame

end ChipEight
