import ChipEight.Machine.History
import ChipEight.Proofs.Session.Moves

/-!
# What the loops do to the machine

A move does a batch of operations to the machine at once, so that nothing comes
between them: a step of the processor, the setting of a key, a reset together
with the loading of the program, or a tick together with the taking of the
frame.  The machine of a session goes through the batches of the moves, one
after the other.
-/

namespace ChipEight

/-- The operations that an action does to the machine of a session. -/
def Action.batch (program : List UInt8) : Action → List Machine.Operation
  | setKey key down => [.setKey key down]
  | restart => [.reset, .load program]
  | quit => []
  | nothing => []

namespace Session

/-- The operations that a move does to the machine at once. -/
def batch (session : Session) (move : Move) : List Machine.Operation :=
  match move, session.phase with
  | .processor, _ => [.step]
  | .event event, .polling => event.action.batch session.program
  | .refresh, .polling => [.tick, .takeFrame]
  | _, _ => []

/-- The batches of moves in order. -/
def batches (session : Session) : List Move → List (List Machine.Operation)
  | [] => []
  | move :: rest => session.batch move :: (session.move move).batches rest

theorem batches_append (session : Session) (first second : List Move) :
    session.batches (first ++ second) =
      session.batches first ++ (session.moveAll first).batches second := by
  induction first generalizing session with
  | nil => rfl
  | cons move rest ih =>
      simp only [List.cons_append, batches, moveAll_cons]
      rw [ih]

theorem batch_of_untimely {session : Session} {move : Move}
    (untimely : move.allowedIn session.phase = false) :
    session.batch move = [] := by
  cases move with
  | processor => cases untimely
  | present => rfl
  | _ =>
      cases phase : session.phase with
      | polling =>
          rw [phase] at untimely
          cases untimely
      | _ => simp only [batch, phase]

theorem machine_act (session : Session) (action : Action) :
    (session.act action).machine =
      session.machine.run (action.batch session.program) := by
  cases action with
  | restart =>
      simp only [act, restart]
      split <;> rfl
  | _ => rfl

theorem machine_move (session : Session) (move : Move) :
    (session.move move).machine =
      session.machine.run (session.batch move) := by
  have rule := session.moveRule move
  generalize session.move move = after at rule ⊢
  cases rule with
  | processor => rfl
  | event event polling =>
      rw [machine_act]
      simp only [batch, polling]
  | refresh polling =>
      simp only [batch, polling]
      rfl
  | @present taken drawing =>
      have idle : session.batch .present = [] := rfl
      rw [idle, Machine.run_nil]
      cases taken <;> rfl
  | ignored move untimely =>
      rw [batch_of_untimely untimely, Machine.run_nil]

theorem machine_moveAll (session : Session) (moves : List Move) :
    (session.moveAll moves).machine =
      session.machine.run (session.batches moves).flatten := by
  induction moves generalizing session with
  | nil => rfl
  | cons move rest ih =>
      rw [moveAll_cons, ih, machine_move, batches, List.flatten_cons,
        Machine.run_append]

/-! ### After the end -/

theorem hasEnded_iff {session : Session} :
    session.hasEnded = true ↔ ∃ failure, session.phase = .ended failure := by
  rw [hasEnded]
  split <;> simp_all

/-- A session that has ended does not begin again, and only the processor still
does something to the machine. -/
theorem ended_move {session : Session} (ended : session.hasEnded = true)
    (move : Move) :
    (session.move move).hasEnded = true ∧
      session.batch move = if move = .processor then [.step] else [] := by
  obtain ⟨failure, phase⟩ := hasEnded_iff.mp ended
  cases move with
  | processor => exact ⟨ended, rfl⟩
  | _ =>
      simp only [Session.move, batch, phase]
      exact ⟨ended, rfl⟩

theorem batches_of_ended {session : Session} (ended : session.hasEnded = true)
    (moves : List Move) :
    (session.batches moves).flatten =
      List.replicate (moves.count .processor) .step := by
  induction moves generalizing session with
  | nil => rfl
  | cons move rest ih =>
      obtain ⟨still, alone⟩ := ended_move ended move
      rw [batches, List.flatten_cons, ih still, alone, List.count_cons]
      by_cases steps : move = .processor
      · simp [steps, List.replicate_succ]
      · simp [steps]

end Session

end ChipEight
