import ChipEight.Proofs.Machine.Likeness
import ChipEight.Proofs.Session.Moves
import ChipEight.Session.Opening

/-!
# Starting over

To start over, a session resets its machine and loads its program again.  The
program fitted into memory when the session was opened, so it fits again, and
the machine is like a new one with that program: nothing that happens later
shows that it has run before.
-/

namespace ChipEight

namespace Machine

/-- Starting a program over shows the same from then on as starting it on a new
machine. -/
theorem observations_restarted {worn : Machine} {source : RandomSource}
    (agrees : worn.random.Agrees source) (program : List UInt8)
    (operations : List Operation) :
    (worn.run [.reset, .load program]).observations operations =
      ((new source).run [.load program]).observations operations := by
  have fresh := alike_of_reset agrees
  have loaded := (fresh.perform (.load program)).1
  exact loaded.observations_eq operations

end Machine

namespace Session

/-- A restart of a program that fits does not fail. -/
theorem restart_of_fits (session : Session)
    (fits : session.program.length ≤ programCapacity) :
    session.restart.phase = session.phase ∧
      session.restart.machine =
        session.machine.run [.reset, .load session.program] := by
  have loaded :=
    Machine.answer_load_of_le fits session.machine.reset.machine
  simp only [restart, loaded]
  exact ⟨rfl, rfl⟩

/-- Starting over is like a fresh start.  Whatever a machine went through, after
a reset and a load of a program that fits, which succeeds, any operations show
the same of it as of a new machine with that program, given a source that
delivers the bytes which the source of the first machine was going to deliver.
A session that was opened can always start over: whatever its loops did, a
restart does not end it, and any operations show the same of its machine as of
that of a session newly opened with such a source. -/
theorem restart_like_fresh_start :
    (∀ (worn : Machine) (source : RandomSource) (program : List UInt8),
      program.length ≤ programCapacity → worn.random.Agrees source →
        (worn.reset.machine.load program).answer = .ok () ∧
        ∀ operations,
          (worn.run [.reset, .load program]).observations operations =
            ((Machine.new source).run [.load program]).observations
              operations) ∧
    ∀ (name : String) (program : List UInt8) (scale : Nat)
      (threshold : Severity) (random : RandomSource) (session : Session)
      (moves : List Move) (event : Event),
      openProgram name program scale threshold random = .ok session →
      (session.moveAll moves).phase = .polling →
      event.action = .restart →
        let before := session.moveAll moves
        let after := before.move (.event event)
        after.phase = .polling ∧
          after.machine = before.machine.run [.reset, .load program] ∧
          ∀ source, before.machine.random.Agrees source →
            ∃ fresh,
              openProgram name program scale threshold source = .ok fresh ∧
              ∀ operations,
                after.machine.observations operations =
                  fresh.machine.observations operations := by
  refine ⟨?machine, ?session⟩
  case machine =>
    intro worn source program fits agrees
    exact ⟨Machine.answer_load_of_le fits _,
      Machine.observations_restarted agrees program⟩
  case session =>
    intro name program scale threshold random session moves event opened
      polling restarts before after
    obtain ⟨fits, window, possible, begins⟩ := openProgram_eq_ok_iff.mp opened
    have kept : before.program = program := by
      rw [program_moveAll, ← begins]
      rfl
    have acts : after = before.restart := by
      simp only [after, move, before, polling, restarts, act]
    obtain ⟨phase, machine⟩ := before.restart_of_fits (by rw [kept]; exact fits)
    rw [kept] at machine
    rw [acts]
    refine ⟨phase.trans polling, machine, ?_⟩
    intro source agrees
    refine ⟨_, openProgram_eq_ok_iff.mpr ⟨fits, window, possible, rfl⟩, ?_⟩
    intro operations
    rw [machine]
    exact Machine.observations_restarted agrees program operations

/-- A machine that drew a byte and holds a key down is reset and loaded with a
program that draws the next byte; and a session whose program has drawn one is
started over. -/
theorem restart_like_fresh_start_after_draw :
    let word : Nat → UInt32 := fun place => UInt32.ofNat place
    let worn := (Machine.new (RandomSource.ofWords word)).run
      [.load [0xC1, 0xFF], .step, .setKey 3 true]
    let source := RandomSource.ofWords fun place => word (place + 1)
    let program : List UInt8 := [0xC2, 0xFF]
    let backspace : Event := .keyDown (some ⟨"Backspace"⟩) false
    (program.length ≤ programCapacity ∧ worn.random.Agrees source ∧
      (worn.run [.reset, .load program]).observations [.step, .tick] =
        ((Machine.new source).run [.load program]).observations
          [.step, .tick]) ∧
    ∃ session fresh,
      openProgram "draw" program 10 .warn source = .ok session ∧
        let before :=
          session.moveAll
            [.processor, .event (.keyDown (some ⟨"Q"⟩) false), .processor]
        before.phase = .polling ∧ backspace.action = .restart ∧
          openProgram "draw" program 10 .warn before.machine.random =
            .ok fresh ∧
          (before.move (.event backspace)).machine.observations
              [.step, .tick] =
            fresh.machine.observations [.step, .tick] := by
  intro word worn source program backspace
  have fits : program.length ≤ programCapacity := by decide
  refine ⟨?machine, ?session⟩
  case machine =>
    have drew : (Machine.new (RandomSource.ofWords word)).executions
        [.load [0xC1, 0xFF], .step, .setKey 3 true] = [.random 1 0xFF] := by
      decide +kernel
    have agrees : worn.random.Agrees source := by
      have stands : worn.random = { word := word, drawn := 1 } := by
        simp only [worn, Machine.random_run, drew]
        rfl
      intro distance
      rw [stands, Nat.add_comm]
      simp only [source, RandomSource.ofWords, RandomSource.byteAt,
        Nat.zero_add]
    exact ⟨fits, agrees,
      (restart_like_fresh_start.1 worn source program fits agrees).2 _⟩
  case session =>
    have opened : openProgram "draw" program 10 .warn source = .ok _ := rfl
    have restarts : backspace.action = .restart := by decide
    obtain ⟨_, _, likeness⟩ := restart_like_fresh_start.2 "draw" program 10
      .warn source _
      [.processor, .event (.keyDown (some ⟨"Q"⟩) false), .processor] backspace
      opened rfl restarts
    obtain ⟨fresh, reopened, same⟩ := likeness _ fun _ => rfl
    exact ⟨_, fresh, opened, rfl, restarts, reopened, same _⟩

end Session

end ChipEight
