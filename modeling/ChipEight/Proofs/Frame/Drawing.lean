import Mathlib.Data.List.Nodup
import Mathlib.Data.List.Pairwise
import ChipEight.Frame.Sprite

/-!
# Drawing, cell by cell

Which cells lie under the lit pixels of a sprite can be read off their
positions: the distance from the upper left corner, wrapped at the edges, names
a row of the sprite and a pixel in it.  A sprite of at most thirty-two rows
reaches no cell twice, so drawing it flips the cells under its lit pixels and
leaves all others alone, and the cells that were there before decide whether
it collides.
-/

namespace ChipEight

namespace Sprite

/-- The row of a sprite that falls on a position, if it is that high. -/
def rowAt (sprite : Sprite) (position : Position) : Nat :=
  (position.row.val + (32 - sprite.top.toNat % 32)) % 32

/-- The pixel of a sprite row that falls on a position, if it is that wide. -/
def pixelAt (sprite : Sprite) (position : Position) : Nat :=
  (position.column.val + (64 - sprite.left.toNat % 64)) % 64

/-- Whether a lit pixel of a sprite falls on a position. -/
def covers (sprite : Sprite) (position : Position) : Bool :=
  decide (sprite.pixelAt position < 8) &&
    (sprite.rows[sprite.rowAt position]?).any fun byte =>
      pixelLit byte (sprite.pixelAt position)

theorem mem_litCells_iff (left : UInt8) (row : Fin 32) (byte : UInt8)
    (position : Position) :
    position ∈ litCells left row byte ↔
      position.row = row ∧
        ∃ pixel < 8, pixelLit byte pixel = true ∧
          position.column = Fin.ofNat 64 (left.toNat + pixel) := by
  obtain ⟨ownRow, ownColumn⟩ := position
  simp only [litCells, List.mem_map, List.mem_filter, List.mem_range,
    Position.mk.injEq]
  constructor
  · rintro ⟨pixel, ⟨small, lit⟩, rfl, rfl⟩
    exact ⟨rfl, pixel, small, lit, rfl⟩
  · rintro ⟨rfl, pixel, small, lit, rfl⟩
    exact ⟨pixel, ⟨small, lit⟩, rfl, rfl⟩

/-- The columns that eight pixels fall on differ from each other. -/
theorem nodup_litCells (left : UInt8) (row : Fin 32) (byte : UInt8) :
    (litCells left row byte).Nodup := by
  rw [litCells]
  apply List.Nodup.map_on _ (List.Nodup.filter _ List.nodup_range)
  intro first firstMem second secondMem same
  have firstSmall := List.mem_range.mp (List.mem_filter.mp firstMem).1
  have secondSmall := List.mem_range.mp (List.mem_filter.mp secondMem).1
  have columns := congrArg (fun position => position.column.val) same
  simp only [Fin.ofNat] at columns
  omega

/-- The rows that up to thirty-two rows of a sprite fall on differ from each
other, so no position is listed twice. -/
theorem nodup_lit {sprite : Sprite} (short : sprite.rows.length ≤ 32) :
    sprite.lit.Nodup := by
  rw [lit, List.nodup_flatMap]
  refine ⟨fun entry _ => nodup_litCells _ _ _, ?_⟩
  rw [List.pairwise_iff_getElem]
  intro first second firstInside secondInside before
  simp only [List.length_zipIdx] at firstInside secondInside
  simp only [Function.onFun, List.getElem_zipIdx, Nat.zero_add]
  intro position onFirst onSecond
  have firstRow := ((mem_litCells_iff _ _ _ _).mp onFirst).1
  have secondRow := ((mem_litCells_iff _ _ _ _).mp onSecond).1
  have rows := congrArg Fin.val (firstRow.symm.trans secondRow)
  simp only [Fin.ofNat] at rows
  omega

theorem mem_lit_iff {sprite : Sprite} (short : sprite.rows.length ≤ 32)
    (position : Position) :
    position ∈ sprite.lit ↔ sprite.covers position = true := by
  have rowSmall := position.row.isLt
  have columnSmall := position.column.isLt
  simp only [lit, List.mem_flatMap, Prod.exists,
    List.mk_mem_zipIdx_iff_getElem?, mem_litCells_iff, covers,
    Bool.and_eq_true, decide_eq_true_eq, Option.any_eq_true]
  constructor
  · rintro ⟨byte, index, found, sameRow, pixel, small, lit, sameColumn⟩
    have below := (List.getElem?_eq_some_iff.mp found).1
    have rowValue := congrArg Fin.val sameRow
    have columnValue := congrArg Fin.val sameColumn
    simp only [Fin.ofNat] at rowValue columnValue
    have row : sprite.rowAt position = index := by
      rw [rowAt]
      omega
    have column : sprite.pixelAt position = pixel := by
      rw [pixelAt]
      omega
    rw [row, column]
    exact ⟨small, byte, found, lit⟩
  · rintro ⟨small, byte, found, lit⟩
    refine ⟨byte, _, found, Fin.ext ?_, _, small, lit, Fin.ext ?_⟩
    · simp only [rowAt, Fin.ofNat]
      omega
    · simp only [pixelAt, Fin.ofNat]
      omega

end Sprite

namespace Canvas

theorem cell_foldl_flip_of_not_mem {positions : List Position}
    {position : Position} (absent : position ∉ positions) (canvas : Canvas) :
    (positions.foldl flip canvas).frame.cell position =
      canvas.frame.cell position := by
  induction positions generalizing canvas with
  | nil => rfl
  | cons first rest ih =>
      rw [List.mem_cons, not_or] at absent
      obtain ⟨other, later⟩ := absent
      rw [List.foldl_cons, ih later]
      simp [flip, Ne.symm other]

/-- Flipping distinct cells one after another flips each of them once. -/
theorem cell_foldl_flip {positions : List Position}
    (distinct : positions.Nodup) (canvas : Canvas) (position : Position) :
    (positions.foldl flip canvas).frame.cell position =
      if position ∈ positions then canvas.frame.cell position ^^^ 1
      else canvas.frame.cell position := by
  induction positions generalizing canvas with
  | nil => rfl
  | cons first rest ih =>
      obtain ⟨unrepeated, restDistinct⟩ := List.nodup_cons.mp distinct
      rw [List.foldl_cons]
      by_cases same : position = first
      · subst same
        rw [cell_foldl_flip_of_not_mem unrepeated]
        simp [flip]
      · rw [ih restDistinct]
        simp [flip, same, Ne.symm same]

theorem and_one_eq (cell : UInt8) :
    cell &&& 1 = if cell.toNat % 2 = 1 then 1 else 0 := by
  rw [← UInt8.toNat_inj, UInt8.toNat_and, UInt8.toNat_one,
    Nat.and_one_is_mod]
  split
  case isTrue odd => exact odd
  case isFalse even => exact Nat.mod_two_ne_one.mp even

/-- Flipping distinct cells collides if one of them was odd at first, for no
cell is met twice. -/
theorem collision_foldl_flip {positions : List Position}
    (distinct : positions.Nodup) (canvas : Canvas) :
    (positions.foldl flip canvas).collision =
      canvas.collision ||| (if positions.any fun position =>
        (canvas.frame.cell position).toNat % 2 = 1 then 1 else 0) := by
  induction positions generalizing canvas with
  | nil => simp
  | cons first rest ih =>
      obtain ⟨unrepeated, restDistinct⟩ := List.nodup_cons.mp distinct
      have others : ∀ position ∈ rest,
          ((flip canvas first).frame.cell position) =
            canvas.frame.cell position := by
        intro position later
        have apart : first ≠ position := fun same => unrepeated (same ▸ later)
        simp [flip, apart]
      have same : (rest.any fun position =>
            ((flip canvas first).frame.cell position).toNat % 2 = 1) =
          rest.any fun position =>
            (canvas.frame.cell position).toNat % 2 = 1 := by
        rw [Bool.eq_iff_iff, List.any_eq_true, List.any_eq_true]
        refine exists_congr fun position => and_congr_right fun later => ?_
        rw [others position later]
      rw [List.foldl_cons, ih restDistinct, same, List.any_cons, flip,
        and_one_eq, UInt8.or_assoc]
      congr 1
      by_cases odd : (canvas.frame.cell first).toNat % 2 = 1
      · rw [if_pos odd, decide_eq_true odd, Bool.true_or, if_pos rfl]
        split <;> rfl
      · rw [if_neg odd, decide_eq_false odd, Bool.false_or, UInt8.zero_or]

end Canvas

namespace Frame

/-- Drawing a sprite flips the cells that its lit pixels fall on. -/
theorem cell_draw (frame : Frame) {sprite : Sprite}
    (short : sprite.rows.length ≤ 32) (position : Position) :
    (frame.draw sprite).frame.cell position =
      frame.cell position ^^^ (if sprite.covers position then 1 else 0) := by
  rw [draw, Canvas.cell_foldl_flip (Sprite.nodup_lit short)]
  by_cases covered : sprite.covers position = true
  · rw [if_pos ((Sprite.mem_lit_iff short position).mpr covered),
      if_pos covered]
  · rw [if_neg (mt (Sprite.mem_lit_iff short position).mp covered),
      if_neg covered, UInt8.xor_zero]

/-- Drawing a sprite collides if a lit pixel falls on an odd cell. -/
theorem collision_draw (frame : Frame) {sprite : Sprite}
    (short : sprite.rows.length ≤ 32) :
    ((∃ position, sprite.covers position = true ∧
          (frame.cell position).toNat % 2 = 1) →
        (frame.draw sprite).collision = 1) ∧
      ((¬ ∃ position, sprite.covers position = true ∧
          (frame.cell position).toNat % 2 = 1) →
        (frame.draw sprite).collision = 0) := by
  have met : (∃ position, sprite.covers position = true ∧
        (frame.cell position).toNat % 2 = 1) ↔
      (sprite.lit.any fun position =>
        (frame.cell position).toNat % 2 = 1) = true := by
    simp only [List.any_eq_true, decide_eq_true_eq, Sprite.mem_lit_iff short]
  rw [draw, Canvas.collision_foldl_flip (Sprite.nodup_lit short),
    UInt8.zero_or, met]
  exact ⟨fun meets => if_pos meets, fun misses => if_neg misses⟩

def IsBinary (frame : Frame) : Prop :=
  ∀ position, frame.cell position = 0 ∨ frame.cell position = 1

theorem isBinary_blank : blank.IsBinary :=
  fun position => .inl (cell_blank position)

theorem IsBinary.draw {frame : Frame} (binary : frame.IsBinary)
    {sprite : Sprite} (short : sprite.rows.length ≤ 32) :
    (frame.draw sprite).frame.IsBinary := by
  intro position
  rw [cell_draw frame short]
  obtain unlit | lit := binary position
  · rw [unlit]
    cases sprite.covers position <;> simp
  · rw [lit]
    cases sprite.covers position <;> simp

end Frame

end ChipEight
