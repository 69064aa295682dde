import ChipEight.Proofs.Frame.Overlay
import ChipEight.Proofs.Instruction.Draw
import ChipEight.Proofs.Machine.Handoff

/-!
# The frame is what was drawn on it

While a machine is neither reset nor clears its frame, the frame is the one it
had at first with the sprites drawn onto it that its steps drew, each with the
rows and the corner it had when it was drawn.  What these sprites leave of a
cell is the parity of how many of them cover it, so they may be drawn in any
order, by any program.
-/

namespace ChipEight

namespace Machine

/-- The sprite that an operation draws, as registers, index and memory have it
before.  A draw that is refused draws none. -/
def spriteDrawn? (machine : Machine) (operation : Operation) : Option Sprite :=
  match (machine.perform operation).answer.executed? with
  | some (.draw x y height) =>
    some (Instruction.sprite machine.state x y height)
  | _ => none

/-- The sprites that operations draw, in order. -/
def spritesDrawn (machine : Machine) (operations : List Operation) :
    List Sprite :=
  (machine.stages operations).filterMap fun (current, operation) =>
    current.spriteDrawn? operation

/-- Whether operations neither reset the machine nor clear the frame. -/
structure KeepsFrame (machine : Machine) (operations : List Operation) :
    Prop where
  unreset : Operation.reset ∉ operations
  uncleared : .clearFrame ∉ machine.executions operations

variable {machine : Machine} {operation : Operation}
variable {operations rest : List Operation} {sprite again : Sprite}

theorem spritesDrawn_cons :
    machine.spritesDrawn (operation :: rest) =
      (machine.spriteDrawn? operation).toList ++
        (machine.perform operation).machine.spritesDrawn rest := by
  simp only [spritesDrawn, stages, List.filterMap_cons]
  cases machine.spriteDrawn? operation <;> rfl

/-- Sprites are drawn by steps that execute a draw. -/
theorem spriteDrawn?_eq_some_iff :
    machine.spriteDrawn? operation = some sprite ↔
      operation = .step ∧ ∃ x y height,
        machine.step.answer = .executed (.draw x y height) ∧
          Instruction.sprite machine.state x y height = sprite := by
  by_cases stepped : operation = .step
  · subst stepped
    rw [spriteDrawn?, executed?_perform_step]
    cases machine.step.answer with
    | executed instruction => cases instruction <;> simp
    | _ => simp
  · simp [spriteDrawn?, executed?_perform machine stepped, stepped]

/-- A drawn sprite is not high, the frame is drawn on with it, and the flag
tells whether it met a lit cell. -/
theorem drawn_of_spriteDrawn?
    (drawn : machine.spriteDrawn? .step = some sprite) :
    sprite.rows.length ≤ 32 ∧
      machine.step.machine.state.frame =
        (machine.state.frame.draw sprite).frame ∧
      machine.step.machine.state.register 0xF =
        (machine.state.frame.draw sprite).collision := by
  obtain ⟨_, x, y, height, executed, rfl⟩ := spriteDrawn?_eq_some_iff.mp drawn
  obtain ⟨word, counter, _, _, decoded, _, _, after⟩ :=
    execution_of_executed executed
  have small := (Instruction.encodable_of_decode decoded).2.2
  rw [after]
  refine ⟨Instruction.length_sprite_le (by omega) _ _ _, rfl, ?_⟩
  exact machine.state.register_setRegister_self (by decide) _

/-- A step that draws without clearing the frame draws a sprite. -/
theorem exists_spriteDrawn?_of_draws (draws : machine.Draws operation)
    (uncleared :
      (machine.perform operation).answer.executed? ≠ some .clearFrame) :
    ∃ sprite, machine.spriteDrawn? operation = some sprite := by
  obtain ⟨rfl, draws⟩ := draws
  rw [executed?_perform_step] at uncleared
  simp only [spriteDrawn?_eq_some_iff, true_and]
  cases outcome : machine.step.answer with
  | executed instruction =>
      rw [outcome] at draws uncleared
      cases instruction with
      | draw x y height => exact ⟨_, x, y, height, rfl, rfl⟩
      | clearFrame => exact absurd rfl uncleared
      | _ => cases draws
  | _ =>
      rw [outcome] at draws
      cases draws

/-- One operation leaves the frame with the sprite on it that it drew. -/
theorem frame_perform_of_spriteDrawn? (unreset : operation ≠ .reset)
    (uncleared :
      (machine.perform operation).answer.executed? ≠ some .clearFrame) :
    (machine.perform operation).machine.state.frame =
      machine.state.frame.drawAll (machine.spriteDrawn? operation).toList := by
  cases drawn : machine.spriteDrawn? operation with
  | none =>
      apply frame_perform _ unreset
      intro draws
      obtain ⟨sprite, drew⟩ := exists_spriteDrawn?_of_draws draws uncleared
      cases drawn.symm.trans drew
  | some sprite =>
      obtain ⟨rfl, _⟩ := spriteDrawn?_eq_some_iff.mp drawn
      exact (drawn_of_spriteDrawn? drawn).2.1

theorem KeepsFrame.head (keeps : machine.KeepsFrame (operation :: rest)) :
    operation ≠ .reset ∧
      (machine.perform operation).answer.executed? ≠ some .clearFrame := by
  refine ⟨fun reset => keeps.unreset (reset ▸ .head rest), fun clears => ?_⟩
  apply keeps.uncleared
  simp [executions_cons, clears]

theorem KeepsFrame.tail (keeps : machine.KeepsFrame (operation :: rest)) :
    (machine.perform operation).machine.KeepsFrame rest where
  unreset := fun later => keeps.unreset (.tail operation later)
  uncleared := fun later => keeps.uncleared (by simp [executions_cons, later])

/-- The frame after a run has the sprites on it that were drawn in the run. -/
theorem frame_run (keeps : machine.KeepsFrame operations) :
    (machine.run operations).state.frame =
      machine.state.frame.drawAll (machine.spritesDrawn operations) := by
  induction operations generalizing machine with
  | nil => rfl
  | cons operation rest ih =>
      obtain ⟨unreset, uncleared⟩ := keeps.head
      calc
        (machine.run (operation :: rest)).state.frame =
          (machine.perform operation).machine.state.frame.drawAll
            ((machine.perform operation).machine.spritesDrawn rest) :=
          ih keeps.tail
        _ = machine.state.frame.drawAll
            (machine.spritesDrawn (operation :: rest)) := by
          rw [frame_perform_of_spriteDrawn? unreset uncleared,
            ← Frame.drawAll_append, ← spritesDrawn_cons]

theorem length_rows_of_mem_spritesDrawn :
    ∀ sprite ∈ machine.spritesDrawn operations, sprite.rows.length ≤ 32 := by
  induction operations generalizing machine with
  | nil => simp [spritesDrawn, stages]
  | cons operation rest ih =>
      intro sprite listed
      rw [spritesDrawn_cons, List.mem_append, Option.mem_toList] at listed
      obtain first | later := listed
      · obtain ⟨rfl, _⟩ := spriteDrawn?_eq_some_iff.mp first
        exact (drawn_of_spriteDrawn? first).1
      · exact ih sprite later

/-- Whether the flag is set by a second draw of one sprite is decided by the
frame before the first. -/
theorem register_of_second_draw (binary : machine.state.frame.IsBinary)
    (keeps : machine.step.machine.KeepsFrame rest)
    (first : machine.spriteDrawn? .step = some sprite)
    (idle : machine.step.machine.spritesDrawn rest = [])
    (second : (machine.step.machine.run rest).spriteDrawn? .step = some again)
    (same : again.wrapped = sprite.wrapped) :
    (machine.step.machine.run rest).step.machine.state.register 0xF = 1 ↔
      ∃ position, sprite.covers position = true ∧
        machine.state.frame.cell position = 0 := by
  obtain ⟨short, frame, _⟩ := drawn_of_spriteDrawn? first
  obtain ⟨shortAgain, _, flag⟩ := drawn_of_spriteDrawn? second
  have between : (machine.step.machine.run rest).state.frame =
      (machine.state.frame.draw sprite).frame := by
    rw [frame_run keeps, idle, ← frame]
    rfl
  rw [flag, between]
  exact Frame.collision_draw_again binary short shortAgain same

/-- In a run without a reset and without a clear, every cell flips as often as
drawn sprites cover it.  So two such runs from one frame end in one frame if
they draw the same sprites at the same places in any order, and a run that
draws each sprite an even number of times at its place ends in the frame it
began with.  When one sprite is drawn twice in a row at one place, on zeros and
ones, the second draw sets the flag exactly if the sprite fell on an unlit cell
at first. -/
theorem drawn_sprites_accumulate :
    (∀ (machine : Machine) (operations : List Operation),
      machine.KeepsFrame operations → ∀ position,
        (machine.run operations).state.frame.cell position =
          machine.state.frame.cell position ^^^
            (if ((machine.spritesDrawn operations).countP fun sprite =>
                sprite.covers position) % 2 = 1 then 1 else 0)) ∧
      (∀ (first second : Machine) (firsts seconds : List Operation),
        first.KeepsFrame firsts → second.KeepsFrame seconds →
        first.state.frame = second.state.frame →
        ((first.spritesDrawn firsts).map Sprite.wrapped).Perm
          ((second.spritesDrawn seconds).map Sprite.wrapped) →
          (first.run firsts).state.frame = (second.run seconds).state.frame) ∧
      (∀ (machine : Machine) (operations : List Operation),
        machine.KeepsFrame operations →
        (∀ sprite, Even
          (((machine.spritesDrawn operations).map Sprite.wrapped).count
            sprite)) →
          (machine.run operations).state.frame = machine.state.frame) ∧
      ∀ (machine : Machine) (between : List Operation) (sprite again : Sprite),
        let drawn := (machine.perform .step).machine
        let before := drawn.run between
        machine.state.frame.IsBinary →
        machine.spriteDrawn? .step = some sprite →
        drawn.KeepsFrame between → drawn.spritesDrawn between = [] →
        before.spriteDrawn? .step = some again →
        again.wrapped = sprite.wrapped →
          ((before.perform .step).machine.state.register 0xF = 1 ↔
            ∃ position, sprite.covers position = true ∧
              machine.state.frame.cell position = 0) := by
  refine ⟨?cells, ?order, ?even, ?again⟩
  case cells =>
    intro machine operations keeps position
    rw [frame_run keeps]
    exact machine.state.frame.cell_drawAll length_rows_of_mem_spritesDrawn
      position
  case order =>
    intro first second firsts seconds firstKeeps secondKeeps start same
    rw [frame_run firstKeeps, frame_run secondKeeps, start]
    apply Frame.drawAll_eq_of_coverage _ length_rows_of_mem_spritesDrawn
      length_rows_of_mem_spritesDrawn
    intro position
    rw [Sprite.coverage_eq_of_perm same position]
  case even =>
    intro machine operations keeps even
    rw [frame_run keeps]
    have idle : machine.state.frame.drawAll [] = machine.state.frame := rfl
    refine Eq.trans ?_ idle
    apply Frame.drawAll_eq_of_coverage _ length_rows_of_mem_spritesDrawn
      (by simp)
    intro position
    exact Nat.even_iff.mp (Sprite.even_coverage even position)
  case again =>
    intro machine between sprite again drawn before binary first keeps idle
      second same
    exact register_of_second_draw binary keeps first idle second same

end Machine

end ChipEight
