import ChipEight.Proofs.Machine.Redraw
import ChipEight.Proofs.Session.Moves
import ChipEight.Session.Opening

/-!
# What is on the screen

The frame loop shows a frame only if the redraw flag was up when it took the
frame.  So the screen is right after a turn if a lowered flag always means that
the screen shows the frame of the machine already.  Every move keeps to that
but one: starting the program over blanks the frame and lowers the flag, and
until the program draws again the screen shows what it showed before.

The main result says exactly when a turn ends with the frame of the machine on
the screen, whatever the two loops did before it and during it.
-/

namespace ChipEight

namespace Session

/-- Whether the picture on the screen, if there is one, is that of a frame. -/
def Shows (session : Session) (frame : Frame) : Prop :=
  ∀ picture ∈ session.picture?, picture = session.window.present frame

instance (session : Session) (frame : Frame) :
    Decidable (session.Shows frame) :=
  inferInstanceAs (Decidable (∀ picture ∈ session.picture?, _))

/-- Whether the program was started over and has not drawn since, after one
more move. -/
def undrawnAfter (session : Session) (undrawn : Bool) : Move → Bool
  | .processor => undrawn && !session.machine.step.answer.draws
  | .event event =>
    undrawn ||
      (Move.allowedIn (.event event) session.phase &&
        decide (event.action = .restart))
  | .refresh => undrawn
  | .present => undrawn

/-- Whether the program was started over and has not drawn since, after moves
in order. -/
def undrawnAfterAll (session : Session) (undrawn : Bool) : List Move → Bool
  | [] => undrawn
  | move :: rest =>
    (session.move move).undrawnAfterAll (session.undrawnAfter undrawn move)
      rest

/-- The frame that is on the screen, or will be once it is shown. -/
def latest? (session : Session) : Option Frame :=
  match session.phase with
  | .drawing (some frame) => some frame
  | _ => session.shown.back?

/-- What ties the screen to the machine: right after a restart the frame is
blank and the flag is down; otherwise a lowered flag means that the latest
frame is that of the machine. -/
structure Tied (session : Session) (undrawn : Bool) : Prop where
  lowered_of_undrawn : undrawn = true → session.machine.state.redraw = false
  blank_of_undrawn : undrawn = true →
    session.machine.state.frame = Frame.blank
  latest_of_lowered : undrawn = false → session.machine.state.redraw = false →
    ∀ frame, session.latest? = some frame →
      frame = session.machine.state.frame

namespace Tied

variable {session : Session} {undrawn : Bool}

/-- Only the flag, the frame and the latest frame matter. -/
theorem of_same (tied : session.Tied undrawn) {after : Session}
    (redraw : after.machine.state.redraw = session.machine.state.redraw)
    (frame : after.machine.state.frame = session.machine.state.frame)
    (latest : after.latest? = session.latest?) :
    after.Tied undrawn where
  lowered_of_undrawn := by
    rw [redraw]
    exact tied.lowered_of_undrawn
  blank_of_undrawn := by
    rw [frame]
    exact tied.blank_of_undrawn
  latest_of_lowered := by
    rw [redraw, frame, latest]
    exact tied.latest_of_lowered

theorem stepProcessor (tied : session.Tied undrawn) :
    session.stepProcessor.Tied
      (undrawn && !session.machine.step.answer.draws) := by
  have redraw := session.machine.redraw_step
  cases draws : session.machine.step.answer.draws with
  | true =>
      rw [draws, Bool.true_or] at redraw
      constructor
      · simp
      · simp
      · intro _ lowered
        cases redraw.symm.trans lowered
  | false =>
      rw [draws, Bool.false_or] at redraw
      rw [Bool.not_false, Bool.and_true]
      exact tied.of_same redraw (Machine.frame_step_of_not_draws draws) rfl

theorem restart (session : Session) : session.restart.Tied true := by
  have redraw :
      (session.machine.reset.machine.load
        session.program).machine.state.redraw = false :=
    Machine.redraw_load _ _
  have frame :
      (session.machine.reset.machine.load
        session.program).machine.state.frame = Frame.blank :=
    Machine.frame_load _ _
  rw [Session.restart]
  split
  · exact ⟨fun _ => redraw, fun _ => frame, by simp⟩
  · exact ⟨fun _ => redraw, fun _ => frame, by simp⟩

theorem act (tied : session.Tied undrawn) (polling : session.phase = .polling)
    (action : Action) :
    (session.act action).Tied (undrawn || decide (action = .restart)) := by
  cases action with
  | setKey key down =>
      rw [decide_eq_false (by simp), Bool.or_false]
      exact tied.of_same (Machine.redraw_setKey _ _ _)
        (Machine.frame_setKey _ _ _) rfl
  | restart =>
      rw [decide_eq_true rfl, Bool.or_true]
      exact restart session
  | quit =>
      rw [decide_eq_false (by simp), Bool.or_false]
      have latest : session.latest? = session.shown.back? := by
        rw [latest?, polling]
      exact tied.of_same rfl rfl latest.symm
  | nothing =>
      rw [decide_eq_false (by simp), Bool.or_false]
      exact tied

/-- Taking the frame lowers the flag, and what was taken becomes the latest
frame. -/
theorem refresh (tied : session.Tied undrawn)
    (polling : session.phase = .polling) : session.refresh.Tied undrawn where
  lowered_of_undrawn := fun _ => rfl
  blank_of_undrawn := tied.blank_of_undrawn
  latest_of_lowered := by
    intro drawn _ frame latest
    change frame = session.machine.state.frame
    cases raised : session.machine.state.redraw with
    | true =>
        have taken : session.refresh.latest? =
            some session.machine.state.frame := by
          simp [latest?, Session.refresh, noteFrame, Machine.takeFrame,
            Machine.tick, Machine.frame?, raised]
        exact Option.some.inj (latest.symm.trans taken)
    | false =>
        have kept : session.refresh.latest? = session.latest? := by
          simp [latest?, Session.refresh, noteFrame, Machine.takeFrame,
            Machine.tick, Machine.frame?, raised, polling]
        exact tied.latest_of_lowered drawn raised frame (kept.symm.trans latest)

theorem present (tied : session.Tied undrawn) {taken : Option Frame}
    (drawing : session.phase = .drawing taken) :
    (session.present taken).Tied undrawn := by
  cases taken with
  | none =>
      have latest : (session.present none).latest? = session.latest? := by
        simp [latest?, Session.present, drawing]
      exact tied.of_same rfl rfl latest
  | some frame =>
      have latest :
          (session.present (some frame)).latest? = session.latest? := by
        simp [latest?, Session.present, drawing]
      exact tied.of_same rfl rfl latest

theorem move (tied : session.Tied undrawn) (move : Move) :
    (session.move move).Tied (session.undrawnAfter undrawn move) := by
  have rule := session.moveRule move
  generalize session.move move = after at rule ⊢
  cases rule with
  | processor => exact tied.stepProcessor
  | event event polling =>
      rw [undrawnAfter, polling]
      exact tied.act polling event.action
  | refresh polling => exact tied.refresh polling
  | present drawing => exact tied.present drawing
  | ignored move untimely =>
      cases move with
      | processor => cases untimely
      | event event =>
          rw [undrawnAfter, untimely, Bool.false_and, Bool.or_false]
          exact tied
      | refresh => exact tied
      | present => exact tied

theorem moveAll (tied : session.Tied undrawn) (moves : List Move) :
    (session.moveAll moves).Tied (session.undrawnAfterAll undrawn moves) := by
  induction moves generalizing session undrawn with
  | nil => exact tied
  | cons move rest ih => exact ih (tied.move move)

end Tied

theorem tied_of_openProgram {name : String} {program : List UInt8}
    {scale : Nat} {threshold : Severity} {random : RandomSource}
    {session : Session}
    (opened : openProgram name program scale threshold random = .ok session) :
    session.Tied false := by
  obtain ⟨_, window, _, rfl⟩ := openProgram_eq_ok_iff.mp opened
  refine ⟨by simp, by simp, ?_⟩
  intro _ _ frame latest
  simp [latest?, noteFrame, ready] at latest

/-- After a turn the screen shows what was taken in it, and otherwise what it
showed before. -/
theorem picture?_turn {session : Session} (polling : session.phase = .polling)
    {within : List Move} (others : Move.present ∉ within) :
    (session.moveAll (.refresh :: within ++ [.present])).picture? =
      (session.machine.frame?.or session.shown.back?).map
        session.window.present := by
  have begins : session.move .refresh = session.refresh := by
    simp only [Session.move, polling]
  have taken : session.refresh.phase = .drawing session.machine.frame? := rfl
  obtain ⟨drawing, shown⟩ := drawing_moveAll taken others
  rw [List.cons_append, moveAll_cons, begins, moveAll_append, picture?,
    window_moveAll, window_moveAll]
  generalize session.refresh.moveAll within = drawn at drawing shown ⊢
  have ends : drawn.moveAll [.present] =
      drawn.present session.machine.frame? := by
    simp only [moveAll_cons, moveAll_nil, Session.move, drawing]
  rw [ends]
  cases session.machine.frame? with
  | none =>
      simp only [present, shown, Option.none_or]
      rfl
  | some frame => simp [present, Session.refresh, noteFrame]

/-- A turn leaves the frame of the machine on the screen unless nothing was
drawn since the program was started over, so that nothing is taken, and the
screen showed something else than the blank frame. -/
theorem Tied.shows_turn_iff {session : Session} {undrawn : Bool}
    (tied : session.Tied undrawn) (polling : session.phase = .polling)
    {within : List Move} (others : Move.present ∉ within) :
    (session.moveAll (.refresh :: within ++ [.present])).Shows
        session.machine.state.frame ↔
      ¬ (undrawn = true ∧
        ∃ picture, session.picture? = some picture ∧
          picture ≠ session.window.present Frame.blank) := by
  rw [Shows, window_moveAll, picture?_turn polling others]
  cases undrawn with
  | true =>
      have untaken : session.machine.frame? = none := by
        simp [Machine.frame?, tied.lowered_of_undrawn rfl]
      rw [untaken, Option.none_or, tied.blank_of_undrawn rfl]
      simp [picture?]
  | false =>
      refine iff_of_true ?_ (by simp)
      intro picture shows
      cases raised : session.machine.state.redraw with
      | true =>
          have taken : session.machine.frame? =
              some session.machine.state.frame := by
            simp [Machine.frame?, raised]
          rw [taken, Option.some_or] at shows
          exact (Option.some.inj shows).symm
      | false =>
          have untaken : session.machine.frame? = none := by
            simp [Machine.frame?, raised]
          rw [untaken, Option.none_or] at shows
          obtain ⟨frame, shown, rfl⟩ := Option.map_eq_some_iff.mp shows
          have latest : session.latest? = some frame := by
            rw [latest?, polling]
            exact shown
          rw [tied.latest_of_lowered rfl raised frame latest]

/-- Exactly when a turn leaves the frame of the machine on the screen: unless
the program was started over, has not drawn since, and had left something else
on the screen than a blank frame.  Whenever a frame is about to be shown, the
moves made so far end in a turn: the two loops moved in any order, the turn was
begun, and anything but showing the frame happened since.  The frame in question
is the one that the machine had when the turn was begun. -/
theorem turn_shows_frame_iff {name : String} {program : List UInt8}
    {scale : Nat} {threshold : Severity} {random : RandomSource}
    {session : Session}
    (opened : openProgram name program scale threshold random = .ok session) :
    (∀ (moves : List Move) (taken : Option Frame),
      (session.moveAll moves).phase = .drawing taken →
        ∃ before within, moves = before ++ .refresh :: within ∧
          (session.moveAll before).phase = .polling ∧
          Move.present ∉ within) ∧
    ∀ before within : List Move,
      (session.moveAll before).phase = .polling →
        Move.present ∉ within →
          ((session.moveAll (before ++ .refresh :: within ++ [.present])).Shows
              (session.moveAll before).machine.state.frame ↔
            ¬ (session.undrawnAfterAll false before = true ∧
              ∃ picture, (session.moveAll before).picture? = some picture ∧
                picture ≠ session.window.present Frame.blank)) := by
  constructor
  case left =>
    intro moves taken drawing
    obtain ⟨_, _, _, rfl⟩ := openProgram_eq_ok_iff.mp opened
    exact exists_refresh_of_drawing rfl drawing
  case right =>
    intro before within polling others
    have tied := (tied_of_openProgram opened).moveAll before
    rw [List.append_assoc, moveAll_append, ← window_moveAll session before]
    exact tied.shows_turn_iff polling others

theorem turn_shows_frame_iff_after_restart :
    ∃ session,
      openProgram "nothing" [] 10 .warn (RandomSource.ofWords fun _ => 0) =
          .ok session ∧
        let before := [Move.event (.keyDown (some ⟨"Backspace"⟩) false)]
        let within := [Move.processor]
        (session.moveAll before).phase = .polling ∧
          Move.present ∉ within ∧
          ((session.moveAll (before ++ .refresh :: within ++ [.present])).Shows
              (session.moveAll before).machine.state.frame ↔
            ¬ (session.undrawnAfterAll false before = true ∧
              ∃ picture, (session.moveAll before).picture? = some picture ∧
                picture ≠ session.window.present Frame.blank)) := by
  have opened :
      openProgram "nothing" [] 10 .warn (RandomSource.ofWords fun _ => 0) =
        .ok _ := rfl
  exact ⟨_, opened, rfl, by decide,
    (turn_shows_frame_iff opened).2 _ _ rfl (by decide)⟩

/-- The program waits for a key, draws a zero and stops.  Started over, it
waits again with a blank frame, and the zero stays on the screen. -/
theorem restart_leaves_picture :
    ∃ session,
      openProgram "zero" [0xF1, 0x0A, 0xA0, 0x50, 0xD0, 0x05, 0x12, 0x06] 10
          .warn (RandomSource.ofWords fun _ => 0) = .ok session ∧
        let before : List Move :=
          [.processor, .event (.keyDown (some ⟨"Q"⟩) false), .processor,
            .processor, .processor, .refresh, .present,
            .event (.keyDown (some ⟨"Backspace"⟩) false), .processor]
        (session.moveAll before).phase = .polling ∧
          ¬ (session.moveAll (before ++ [.refresh, .present])).Shows
            (session.moveAll before).machine.state.frame :=
  ⟨_, rfl, by decide +kernel⟩

end Session

end ChipEight
