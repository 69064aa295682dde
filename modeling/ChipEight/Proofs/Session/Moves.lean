import Mathlib.Data.List.Induction
import ChipEight.Session

/-!
# What a move can do

The processor may always move; the frame loop moves as its phase allows, and a
move that is not allowed changes nothing.  `MoveRule` has one rule for each
kind of move and one for moves that are not allowed.

A turn of the frame loop ends with the frame being shown, and everything that
is shown was taken by a refresh in the same turn.
-/

namespace ChipEight

namespace Session

/-- Whether a phase allows a move. -/
def Move.allowedIn : Move → Phase → Bool
  | .processor, _ => true
  | .event _, .polling => true
  | .refresh, .polling => true
  | .present, .drawing _ => true
  | _, _ => false

/-- The ways a move can go. -/
inductive MoveRule (session : Session) : Move → Session → Prop
  | processor : MoveRule session .processor session.stepProcessor
  | event (event : Event) (polling : session.phase = .polling) :
      MoveRule session (.event event) (session.act event.action)
  | refresh (polling : session.phase = .polling) :
      MoveRule session .refresh session.refresh
  | present {taken : Option Frame} (drawing : session.phase = .drawing taken) :
      MoveRule session .present (session.present taken)
  | ignored (move : Move) (untimely : move.allowedIn session.phase = false) :
      MoveRule session move session

theorem moveRule (session : Session) (move : Move) :
    session.MoveRule move (session.move move) := by
  cases move with
  | processor => exact .processor
  | event event =>
      cases phase : session.phase with
      | polling =>
          simp only [Session.move, phase]
          exact .event event phase
      | _ =>
          simp only [Session.move, phase]
          exact .ignored _ (by rw [phase]; rfl)
  | refresh =>
      cases phase : session.phase with
      | polling =>
          simp only [Session.move, phase]
          exact .refresh phase
      | _ =>
          simp only [Session.move, phase]
          exact .ignored _ (by rw [phase]; rfl)
  | present =>
      cases phase : session.phase with
      | drawing taken =>
          simp only [Session.move, phase]
          exact .present phase
      | _ =>
          simp only [Session.move, phase]
          exact .ignored _ (by rw [phase]; rfl)

theorem settings_restart (session : Session) :
    session.restart.window = session.window ∧
      session.restart.program = session.program := by
  rw [restart]
  split <;> exact ⟨rfl, rfl⟩

/-- No move touches the window or the program that a restart loads. -/
theorem settings_move (session : Session) (move : Move) :
    (session.move move).window = session.window ∧
      (session.move move).program = session.program := by
  have rule := session.moveRule move
  generalize session.move move = after at rule ⊢
  cases rule with
  | processor => exact ⟨rfl, rfl⟩
  | event event polling =>
      cases event.action with
      | restart => exact session.settings_restart
      | _ => exact ⟨rfl, rfl⟩
  | refresh polling => exact ⟨rfl, rfl⟩
  | @present taken drawing => cases taken <;> exact ⟨rfl, rfl⟩
  | ignored move untimely => exact ⟨rfl, rfl⟩

theorem window_moveAll (session : Session) (moves : List Move) :
    (session.moveAll moves).window = session.window := by
  induction moves generalizing session with
  | nil => rfl
  | cons move rest ih =>
      rw [moveAll_cons, ih]
      exact (session.settings_move move).1

theorem program_moveAll (session : Session) (moves : List Move) :
    (session.moveAll moves).program = session.program := by
  induction moves generalizing session with
  | nil => rfl
  | cons move rest ih =>
      rw [moveAll_cons, ih]
      exact (session.settings_move move).2

/-- While the frame is being drawn, no other move touches it or the screen. -/
theorem drawing_move {session : Session} {taken : Option Frame}
    (drawing : session.phase = .drawing taken) {move : Move}
    (other : move ≠ .present) :
    (session.move move).phase = .drawing taken ∧
      (session.move move).shown = session.shown := by
  have rule := session.moveRule move
  generalize session.move move = after at rule ⊢
  cases rule with
  | processor => exact ⟨drawing, rfl⟩
  | event event polling => cases drawing.symm.trans polling
  | refresh polling => cases drawing.symm.trans polling
  | present shows => exact absurd rfl other
  | ignored move untimely => exact ⟨drawing, rfl⟩

theorem drawing_moveAll {session : Session} {taken : Option Frame}
    (drawing : session.phase = .drawing taken) {moves : List Move}
    (others : Move.present ∉ moves) :
    (session.moveAll moves).phase = .drawing taken ∧
      (session.moveAll moves).shown = session.shown := by
  induction moves generalizing session with
  | nil => exact ⟨drawing, rfl⟩
  | cons move rest ih =>
      rw [List.mem_cons, not_or] at others
      obtain ⟨first, later⟩ := others
      obtain ⟨phase, shown⟩ := drawing_move drawing (Ne.symm first)
      obtain ⟨lastPhase, lastShown⟩ := ih phase later
      exact ⟨lastPhase, lastShown.trans shown⟩

theorem act_ne_drawing {session : Session} (polling : session.phase = .polling)
    (action : Action) (taken : Option Frame) :
    (session.act action).phase ≠ .drawing taken := by
  intro drawing
  cases action with
  | setKey key down => cases polling.symm.trans drawing
  | restart =>
      simp only [act, restart] at drawing
      split at drawing
      · cases polling.symm.trans drawing
      · cases drawing
  | quit => cases drawing
  | nothing => cases polling.symm.trans drawing

/-- A frame loop that is drawing took the frame by a refresh in this turn, and
has not shown it.  Any other move that leaves it drawing belongs to the same
turn. -/
theorem exists_refresh_of_drawing {session : Session}
    (polling : session.phase = .polling) {moves : List Move}
    {taken : Option Frame}
    (drawing : (session.moveAll moves).phase = .drawing taken) :
    ∃ before within, moves = before ++ .refresh :: within ∧
      (session.moveAll before).phase = .polling ∧
      Move.present ∉ within := by
  induction moves using List.reverseRecOn generalizing taken with
  | nil => cases polling.symm.trans drawing
  | append_singleton earlier move ih =>
      rw [moveAll_append] at drawing
      have goesOn : ∀ frame,
          (session.moveAll earlier).phase = .drawing frame →
            move ≠ .present →
              ∃ before within, earlier ++ [move] = before ++ .refresh :: within ∧
                (session.moveAll before).phase = .polling ∧
                Move.present ∉ within := by
        intro frame phase other
        obtain ⟨before, within, rfl, starts, unshown⟩ := ih phase
        refine ⟨before, within ++ [move], by simp, starts, ?_⟩
        simpa [unshown] using Ne.symm other
      have rule := (session.moveAll earlier).moveRule move
      simp only [moveAll_cons, moveAll_nil] at drawing
      generalize (session.moveAll earlier).move move = after at rule drawing
      cases rule with
      | processor => exact goesOn _ drawing (by simp)
      | event event starts =>
          exact absurd drawing (act_ne_drawing starts event.action taken)
      | refresh starts => exact ⟨earlier, [], rfl, starts, by simp⟩
      | @present shown shows => cases shown <;> cases drawing
      | ignored move untimely =>
          refine goesOn _ drawing ?_
          rintro rfl
          rw [drawing] at untimely
          cases untimely

end Session

end ChipEight
