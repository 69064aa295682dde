import ChipEight.Proofs.Machine.Safety

/-!
# The font stays intact

Programs may write almost anywhere, and they may rewrite themselves; but the
check before every write keeps them off the font, and programs are loaded above
it.  So the font stands in memory for as long as a machine lives, and looking
up a digit and drawing five rows always shows the glyph of that digit.
-/

namespace ChipEight

namespace Font

theorem toNat_glyphAddress (byte : UInt8) :
    (glyphAddress byte).toNat =
      fontStart.toNat + glyphHeight * (byte.toNat % 16) := by
  simp only [glyphAddress, fontStart, glyphHeight, UInt16.toNat_add,
    UInt16.toNat_mul, UInt8.toNat_toUInt16, UInt8.toNat_mod,
    UInt16.reduceToNat, UInt8.reduceToNat]
  omega

theorem length_glyph_le (digit : Nat) : (glyph digit).length ≤ 32 := by
  simp only [glyph, glyphHeight, List.length_take]
  omega

end Font

namespace Memory

/-- Whether the font stands in its place. -/
def HoldsFont (memory : Memory) : Prop :=
  memory.slice fontStart.toNat Font.bytes.length = Font.bytes

theorem holdsFont_initial : initial.HoldsFont :=
  blank.slice_store (by decide)

/-- The font stays if all its addresses keep their bytes. -/
theorem HoldsFont.of_same {before after : Memory} (holds : before.HoldsFont)
    (same : ∀ address, fontStart.toNat ≤ address → address < fontEnd.toNat →
      after.byte address = before.byte address) :
    after.HoldsFont := by
  rw [HoldsFont, slice_eq_iff] at holds ⊢
  intro offset byte found
  have inside := (List.getElem?_eq_some_iff.mp found).1
  have size : Font.bytes.length = 80 := rfl
  have kept : after.byte (fontStart.toNat + offset) =
      before.byte (fontStart.toNat + offset) := by
    apply same
    · omega
    · simp only [fontStart, fontEnd, UInt16.reduceToNat]
      omega
  rw [kept]
  exact holds offset byte found

/-- A glyph stands where looking it up points to. -/
theorem HoldsFont.slice_glyph {memory : Memory} (holds : memory.HoldsFont)
    (byte : UInt8) :
    memory.slice (Font.glyphAddress byte).toNat glyphHeight =
      Font.glyph (byte.toNat % 16) := by
  have size : Font.bytes.length = 80 := rfl
  rw [Font.toNat_glyphAddress, Font.glyph]
  apply slice_part holds
  simp only [glyphHeight]
  omega

end Memory

namespace State

/-- No change that an operation makes touches the font. -/
theorem Change.holdsFont {before after : State}
    (change : before.Change after) (holds : before.memory.HoldsFont) :
    after.memory.HoldsFont := by
  cases change with
  | kept => exact holds
  | passed within => exact holds
  | ran random within fetched decoded accepted continues =>
      apply holds.of_same
      intro address first last
      exact Instruction.byte_effect_of_font accepted random first last
  | loaded program fits =>
      apply holds.of_same
      intro address first last
      apply Memory.byte_store_of_outside
      left
      simp only [fontEnd, programStart, UInt16.reduceToNat] at last ⊢
      omega
  | ticked => exact holds
  | keySet key down => exact holds
  | cleared => exact Memory.holdsFont_initial
  | shown => exact holds

end State

namespace Machine

theorem Reachable.holdsFont {machine : Machine}
    (reachable : machine.Reachable) : machine.state.memory.HoldsFont :=
  reachable.state_keeps Memory.holdsFont_initial
    fun _ _ change holds => change.holdsFont holds

/-- Looking up a digit and drawing five rows succeeds and shows the glyph. -/
theorem exists_glyph_drawn {state : State}
    (holds : state.memory.HoldsFont)
    (within : state.counter.toNat ≤ 0xFFE) {x a b : UInt8}
    (namedX : x.toNat < registerCount) (namedA : a.toNat < registerCount)
    (namedB : b.toNat < registerCount) (first second : UInt8) :
    ∃ found drawn,
      (Instruction.findGlyph x).execute first state = .ok found ∧
      (Instruction.draw a b 5).execute second found = .ok drawn ∧
      drawn.frame = (state.frame.draw
        { rows := Font.glyph ((state.register x).toNat % 16)
          top := state.register b
          left := state.register a }).frame := by
  have encodableX : (Instruction.findGlyph x).Encodable := by
    simpa [Instruction.Encodable, Instruction.namedRegisters] using namedX
  have encodableAB : (Instruction.draw a b 5).Encodable :=
    ⟨namedA, namedB, by decide⟩
  let found : State :=
    { state with
      index := Font.glyphAddress (state.register x)
      counter := state.counter + 2 }
  have looked : (Instruction.findGlyph x).execute first state = .ok found :=
    Instruction.execute_of_isStraight rfl encodableX rfl (by omega) first
  have counter : found.counter.toNat = state.counter.toNat + 2 := by
    simp only [found, UInt16.toNat_add, UInt16.reduceToNat]
    omega
  have accepted : (Instruction.draw a b 5).fault? found = none := by
    apply (Span.readFault?_eq_none_iff _).mpr
    simp only [State.span, Span.stop, found, Font.toNat_glyphAddress,
      fontStart, glyphHeight, memorySize, UInt16.reduceToNat,
      UInt8.reduceToNat]
    omega
  have shown := Instruction.execute_of_isStraight rfl encodableAB accepted
    (by omega) second
  refine ⟨found, _, looked, shown, ?_⟩
  have rows : found.memory.slice found.index.toNat (5 : UInt8).toNat =
      Font.glyph ((state.register x).toNat % 16) :=
    holds.slice_glyph (state.register x)
  simp only [Instruction.effect, Instruction.drawn, Instruction.sprite, rows]
  rfl

/-- In every reachable machine the font stands in memory as it was built in.
From every counter where a word can be fetched, and for every value of Vx,
looking up the glyph of Vx and drawing five rows succeeds and flips exactly the
cells under the lit pixels of the glyph that the low digit of Vx names. -/
theorem run_holds_font_and_draws_glyphs (random : RandomSource)
    (operations : List Operation) :
    let state := ((new random).run operations).state
    state.memory.slice fontStart.toNat Font.bytes.length = Font.bytes ∧
      ∀ x a b value : UInt8, x.toNat < registerCount →
        a.toNat < registerCount → b.toNat < registerCount →
        state.counter.toNat ≤ 0xFFE → ∀ first second : UInt8,
          let before := state.setRegister x value
          ∃ found drawn,
            (Instruction.findGlyph x).execute first before = .ok found ∧
            (Instruction.draw a b 5).execute second found = .ok drawn ∧
            ∀ position, drawn.frame.cell position =
              state.frame.cell position ^^^
                (if Sprite.covers
                    { rows := Font.glyph (value.toNat % 16)
                      top := before.register b
                      left := before.register a } position
                  then 1 else 0) := by
  intro state
  have holds : state.memory.HoldsFont :=
    Reachable.holdsFont ⟨random, operations, rfl⟩
  refine ⟨holds, ?_⟩
  intro x a b value namedX namedA namedB within first second before
  obtain ⟨found, drawn, looked, shown, frame⟩ :=
    exists_glyph_drawn (show before.memory.HoldsFont from holds) within
      namedX namedA namedB first second
  refine ⟨found, drawn, looked, shown, ?_⟩
  have digit : before.register x = value := by
    simp [before, State.setRegister, State.register, namedX]
  intro position
  rw [frame, digit, Frame.cell_draw _ (Font.length_glyph_le _)]
  rfl

end Machine

end ChipEight
