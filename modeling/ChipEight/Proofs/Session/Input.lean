import Mathlib.Data.List.Infix
import ChipEight.Proofs.Session.Events
import ChipEight.Proofs.Session.Restart

/-!
# Events reach the machine

In each turn the frame loop handles the events of one poll, refreshes, and
presents, while the processor makes its steps at any time.  Up to the first
event that ends the session, what reaches the machine from outside is what the
events stand for, in their order; from that event on only the processor reaches
the machine.

So as long as nothing is restarted and no instruction gets a key, a key of the
keypad is down if the last event of the key underneath was a press.
-/

namespace ChipEight

namespace Session

namespace Move

def event? : Move → Option Event
  | event handled => some handled
  | _ => none

def quits : Move → Bool
  | event handled => handled.quits
  | _ => false

end Move

/-- The moves before the first event that ends the session. -/
def beforeQuit (moves : List Move) : List Move :=
  moves.takeWhile fun move => !move.quits

/-- The moves from the first event that ends the session on. -/
def sinceQuit (moves : List Move) : List Move :=
  moves.dropWhile fun move => !move.quits

/-- The events that are handled before one ends the session. -/
def heeded (moves : List Move) : List Event :=
  (beforeQuit moves).filterMap Move.event?

/-- The moves of the frame loop in the turns that handle the events of some
polls. -/
def turns (polls : List (List Event)) : List Move :=
  polls.flatMap fun poll => poll.map .event ++ [.refresh, .present]

/-- The batches of moves that bring something to the machine from outside. -/
def inputs (session : Session) (moves : List Move) :
    List (List Machine.Operation) :=
  (session.batches moves).filter Machine.bringsInput

/-- Whether moves come in the order of turns, if the frame loop is drawing or if
it is not. -/
inductive Timely : Bool → List Move → Prop
  | done (drawing : Bool) : Timely drawing []
  | processor {drawing : Bool} {rest : List Move}
      (timely : Timely drawing rest) : Timely drawing (.processor :: rest)
  | event (event : Event) {rest : List Move} (timely : Timely false rest) :
      Timely false (.event event :: rest)
  | refresh {rest : List Move} (timely : Timely true rest) :
      Timely false (.refresh :: rest)
  | present {rest : List Move} (timely : Timely false rest) :
      Timely true (.present :: rest)

/-- Whether the frame loop is drawing or handles events. -/
def StandsAt (session : Session) : Bool → Prop
  | false => session.phase = .polling
  | true => ∃ taken, session.phase = .drawing taken

/-! ### The order of turns -/

theorem timely_events (poll : List Event) {rest : List Move}
    (timely : Timely false rest) : Timely false (poll.map .event ++ rest) := by
  induction poll with
  | nil => exact timely
  | cons event poll ih => exact .event event ih

theorem timely_turns (polls : List (List Event)) :
    Timely false (turns polls) := by
  induction polls with
  | nil => exact .done false
  | cons poll later ih =>
      rw [turns, List.flatMap_cons, List.append_assoc]
      exact timely_events poll (.refresh (.present ih))

theorem Timely.of_append {drawing : Bool} {first second : List Move}
    (timely : Timely drawing (first ++ second)) : Timely drawing first := by
  induction first generalizing drawing with
  | nil => exact .done drawing
  | cons move rest ih =>
      cases timely with
      | processor timely => exact .processor (ih timely)
      | event event timely => exact .event event (ih timely)
      | refresh timely => exact .refresh (ih timely)
      | present timely => exact .present (ih timely)

/-- The processor may move at any time. -/
theorem Timely.of_filter {drawing : Bool} {moves : List Move}
    (timely : Timely drawing (moves.filter fun move => move ≠ .processor)) :
    Timely drawing moves := by
  induction moves generalizing drawing with
  | nil => exact .done drawing
  | cons move rest ih =>
      cases move with
      | processor => exact .processor (ih timely)
      | event event =>
          cases timely with
          | event _ timely => exact .event event (ih timely)
      | refresh =>
          cases timely with
          | refresh timely => exact .refresh (ih timely)
      | present =>
          cases timely with
          | present timely => exact .present (ih timely)

theorem timely_of_turns {polls : List (List Event)} {moves : List Move}
    (order : (moves.filter fun move => move ≠ .processor) <+: turns polls) :
    Timely false moves := by
  obtain ⟨later, split⟩ := order
  have timely := timely_turns polls
  rw [← split] at timely
  exact timely.of_append.of_filter

/-! ### The first event that ends the session -/

theorem beforeQuit_append_sinceQuit (moves : List Move) :
    beforeQuit moves ++ sinceQuit moves = moves :=
  List.takeWhile_append_dropWhile

theorem stays_of_mem_beforeQuit {moves : List Move} :
    ∀ move ∈ beforeQuit moves, move.quits = false := by
  intro move member
  simpa using List.all_eq_true.mp List.all_takeWhile move member

theorem quits_of_head_sinceQuit {moves : List Move} :
    ∀ move ∈ (sinceQuit moves).head?, move.quits = true := by
  intro move first
  have stops := List.head?_dropWhile_not (fun move => !move.quits) moves
  rw [sinceQuit, Option.mem_def] at first
  rw [first] at stops
  simpa using stops

/-! ### One move -/

theorem phase_act_of_fits {session : Session}
    (fits : session.program.length ≤ programCapacity) {action : Action}
    (stays : action ≠ .quit) : (session.act action).phase = session.phase := by
  cases action with
  | restart => exact (session.restart_of_fits fits).1
  | quit => exact absurd rfl stays
  | _ => rfl

variable {session : Session} {drawing : Bool} {move : Move}
  {rest : List Move}

/-- A timely move that does not end the session leads to where the next one is
timely. -/
theorem standsAt_move (timely : Timely drawing (move :: rest))
    (stands : session.StandsAt drawing)
    (fits : session.program.length ≤ programCapacity)
    (stays : move.quits = false) :
    ∃ next, (session.move move).StandsAt next ∧ Timely next rest := by
  cases timely with
  | processor timely =>
      refine ⟨drawing, ?_, timely⟩
      cases drawing with
      | false => exact stands
      | true => exact stands
  | event event timely =>
      refine ⟨false, ?_, timely⟩
      have unquit : event.action ≠ .quit := by
        rw [ne_eq, Event.action_eq_quit_iff]
        simpa [Move.quits] using stays
      have phase := phase_act_of_fits fits unquit
      have polling : session.phase = .polling := stands
      simp only [StandsAt, Session.move, polling, phase]
  | refresh timely =>
      refine ⟨true, ?_, timely⟩
      have polling : session.phase = .polling := stands
      simp only [StandsAt, Session.move, polling]
      exact ⟨_, rfl⟩
  | present timely =>
      refine ⟨false, ?_, timely⟩
      obtain ⟨taken, phase⟩ := stands
      simp only [StandsAt, Session.move, phase]
      cases taken <;> rfl

theorem inputs_append (session : Session) (first second : List Move) :
    session.inputs (first ++ second) =
      session.inputs first ++ (session.moveAll first).inputs second := by
  rw [inputs, batches_append, List.filter_append]
  rfl

theorem inputs_of_steps {moves : List Move} {count : Nat}
    (steps : (session.batches moves).flatten = List.replicate count .step) :
    session.inputs moves = [] := by
  rw [inputs, List.filter_eq_nil_iff]
  intro batch done brings
  obtain ⟨operation, within, input⟩ := List.any_eq_true.mp brings
  have member := List.mem_flatten.mpr ⟨batch, done, within⟩
  rw [steps] at member
  rw [List.eq_of_mem_replicate member] at input
  cases input

theorem inputs_cons (session : Session) (move : Move) (rest : List Move) :
    session.inputs (move :: rest) =
      session.inputs [move] ++ (session.move move).inputs rest :=
  session.inputs_append [move] rest

/-- A timely move brings to the machine what the event it handles stands for. -/
theorem inputs_move (timely : Timely drawing (move :: rest))
    (stands : session.StandsAt drawing) :
    session.inputs [move] =
      move.event?.toList.flatMap (Event.input session.program) := by
  cases timely with
  | processor timely => rfl
  | event event timely =>
      have polling : session.phase = .polling := stands
      have brought := Event.filter_batch_action session.program event
      simpa [inputs, batches, batch, polling, Move.event?] using brought
  | refresh timely =>
      have polling : session.phase = .polling := stands
      simp only [inputs, batches, batch, polling]
      rfl
  | present timely => rfl

/-! ### Whole runs -/

/-- As long as no event ends the session, the events bring to the machine what
they stand for.  No event comes while the frame loop is drawing, so that none is
missed: where the loop stands in its turn is carried along. -/
theorem inputs_of_stays {early late : List Move}
    (timely : Timely drawing (early ++ late))
    (stands : session.StandsAt drawing)
    (fits : session.program.length ≤ programCapacity)
    (stays : ∀ move ∈ early, move.quits = false) :
    session.inputs early =
        (early.filterMap Move.event?).flatMap
          (Event.input session.program) ∧
      ∃ next, (session.moveAll early).StandsAt next ∧ Timely next late := by
  induction early generalizing session drawing with
  | nil => exact ⟨rfl, drawing, stands, timely⟩
  | cons move rest ih =>
      obtain ⟨next, standsNext, timelyNext⟩ :=
        standsAt_move timely stands fits (stays move List.mem_cons_self)
      have kept := (session.settings_move move).2
      obtain ⟨brought, ends⟩ :=
        ih timelyNext standsNext (by rw [kept]; exact fits)
          fun later member => stays later (List.mem_cons_of_mem move member)
      refine ⟨?_, ends⟩
      rw [inputs_cons, inputs_move timely stands, brought, kept,
        ← List.flatMap_append]
      congr 1
      rw [List.filterMap_cons]
      cases move.event? <;> rfl

/-- From an event that ends the session on only the processor reaches the
machine. -/
theorem batches_of_quits (timely : Timely drawing rest)
    (stands : session.StandsAt drawing)
    (quits : ∀ move ∈ rest.head?, move.quits = true) :
    (session.batches rest).flatten =
      List.replicate (rest.count .processor) .step := by
  cases timely with
  | done => rfl
  | processor timely => cases quits _ rfl
  | @event event later timely =>
      have ends := (Event.action_eq_quit_iff event).mpr (quits _ rfl)
      have polling : session.phase = .polling := stands
      have idle : session.batch (.event event) = [] := by
        simp only [batch, polling, ends, Action.batch]
      have ended : (session.move (.event event)).hasEnded = true := by
        simp only [Session.move, polling, ends]
        rfl
      rw [batches, idle, List.flatten_cons, List.nil_append,
        batches_of_ended ended, List.count_cons_of_ne (by simp)]
  | refresh timely => cases quits _ rfl
  | present timely => cases quits _ rfl

/-- What the events of any polls do to a session that handles events, while the
processor moves at any time. -/
theorem inputs_of_turns (polling : session.phase = .polling)
    (fits : session.program.length ≤ programCapacity)
    {polls : List (List Event)} {moves : List Move}
    (order : (moves.filter fun move => move ≠ .processor) <+: turns polls) :
    session.inputs moves =
        (heeded moves).flatMap (Event.input session.program) ∧
      ((session.moveAll (beforeQuit moves)).batches (sinceQuit moves)).flatten =
        List.replicate ((sinceQuit moves).count .processor) .step := by
  have timely : Timely false (beforeQuit moves ++ sinceQuit moves) := by
    rw [beforeQuit_append_sinceQuit]
    exact timely_of_turns order
  obtain ⟨brought, next, stands, afterwards⟩ :=
    inputs_of_stays timely polling fits stays_of_mem_beforeQuit
  have steps := batches_of_quits afterwards stands quits_of_head_sinceQuit
  refine ⟨?_, steps⟩
  rw [← beforeQuit_append_sinceQuit moves, inputs_append, brought,
    inputs_of_steps steps, List.append_nil, beforeQuit_append_sinceQuit]
  rfl

/-! ### The keypad -/

theorem mem_inputs_flatten {operation : Machine.Operation}
    {moves : List Move} (brought : operation.isInput = true)
    (member : operation ∈ (session.batches moves).flatten) :
    operation ∈ (session.inputs moves).flatten := by
  obtain ⟨batch, done, within⟩ := List.mem_flatten.mp member
  have input := Machine.bringsInput_of_mem brought within
  exact List.mem_flatten.mpr ⟨batch, List.mem_filter.mpr ⟨done, input⟩, within⟩

/-- If nothing is restarted and no instruction gets a key, the last event of the
key underneath decides whether a key of the keypad is down. -/
theorem isDown_iff_last_event {host : HostKey} {key : UInt8}
    (named : key.toNat < keyCount)
    (lies : ∀ other : HostKey,
      HostKey.keypadLayout.lookup other = some key ↔ other = host)
    (up : session.machine.state.keypad.isDown key = false)
    {moves : List Move} {events : List Event}
    (brought : session.inputs moves =
      events.flatMap (Event.input session.program))
    (undelivered : ∀ x, Instruction.awaitKey x ∉
      session.machine.executions (session.batches moves).flatten)
    (unrestarted : Event.keyDown (some ⟨"Backspace"⟩) false ∉ events) :
    (session.moveAll moves).machine.state.keypad.isDown key = true ↔
      (events.filter (Event.concerns host)).getLast? =
        some (.keyDown (some host) false) := by
  have kept : Machine.Operation.reset ∉ (session.batches moves).flatten := by
    intro reset
    have member := mem_inputs_flatten rfl reset
    rw [brought] at member
    obtain ⟨batch, listed, within⟩ := List.mem_flatten.mp member
    obtain ⟨event, handled, input⟩ := List.mem_flatMap.mp listed
    have restarts :=
      Event.restarts_of_reset_mem (List.mem_flatten.mpr ⟨batch, input, within⟩)
    rw [restarts] at handled
    exact unrestarted handled
  rw [machine_moveAll,
    Machine.isDown_run_iff_last named up undelivered kept,
    Machine.filter_sets_flatten]
  change ((session.inputs moves).flatten.filter _).getLast? = _ ↔ _
  rw [brought]
  exact Event.getLast?_sets_inputs_iff lies session.program events

theorem isDown_of_openProgram {name : String} {program : List UInt8}
    {scale : Nat} {threshold : Severity} {random : RandomSource}
    (opened : openProgram name program scale threshold random = .ok session)
    (key : UInt8) : session.machine.state.keypad.isDown key = false := by
  obtain ⟨_, window, _, rfl⟩ := openProgram_eq_ok_iff.mp opened
  obtain ⟨memory, same⟩ := (Machine.new random).exists_load_eq program
  have released :
      ((Machine.new random).load program).machine.state.keypad =
        Keypad.released := by
    rw [same]
    rfl
  change ((Machine.new random).load program).machine.state.keypad.isDown key = _
  rw [released, Keypad.isDown_released]

/-- The events of any polls, handled while the processor steps at any time,
reach the machine as what they stand for.  The machine goes through the batches
of the moves; those that bring something from outside are, in order, what the
events before the first one that ends the session stand for; and from that one
on only the processor reaches the machine.  As long as nothing was restarted
and no instruction got a key, a key of the keypad is down exactly if the last
press or release of the one key underneath is a press. -/
theorem input_follows_events {name : String} {program : List UInt8}
    {scale : Nat} {threshold : Severity} {random : RandomSource}
    {session : Session}
    (opened : openProgram name program scale threshold random = .ok session)
    {polls : List (List Event)} {moves : List Move}
    (order : (moves.filter fun move => move ≠ .processor) <+: turns polls) :
    let operations := (session.batches moves).flatten
    (session.moveAll moves).machine = session.machine.run operations ∧
      session.inputs moves = (heeded moves).flatMap (Event.input program) ∧
      ((session.moveAll (beforeQuit moves)).batches (sinceQuit moves)).flatten =
        List.replicate ((sinceQuit moves).count .processor) .step ∧
      ((∀ x, Instruction.awaitKey x ∉ session.machine.executions operations) →
        Event.keyDown (some ⟨"Backspace"⟩) false ∉ heeded moves →
          ∀ key : UInt8, key.toNat < keyCount →
            ∃ host : HostKey,
              (∀ other : HostKey,
                other.command? = some (.key key) ↔ other = host) ∧
              ((session.moveAll moves).machine.state.keypad.isDown key = true ↔
                ((heeded moves).filter (Event.concerns host)).getLast? =
                  some (.keyDown (some host) false))) := by
  intro operations
  have begins : session.phase = .polling ∧ session.program = program ∧
      program.length ≤ programCapacity := by
    obtain ⟨fits, window, _, rfl⟩ := openProgram_eq_ok_iff.mp opened
    exact ⟨rfl, rfl, fits⟩
  obtain ⟨polling, rfl, fits⟩ := begins
  obtain ⟨brought, steps⟩ := inputs_of_turns polling fits order
  refine ⟨session.machine_moveAll moves, brought, steps, ?_⟩
  intro undelivered unrestarted key named
  obtain ⟨host, lies⟩ := HostKey.exists_host named
  refine ⟨host, fun other => HostKey.command?_eq_key_iff.trans (lies other), ?_⟩
  exact isDown_iff_last_event named lies (isDown_of_openProgram opened key)
    brought undelivered unrestarted

/-- Q is pressed, repeats and comes up, W is pressed, and after Escape neither E
nor a refresh counts. -/
theorem input_follows_events_until_escape :
    let press : String → Move :=
      fun name => .event (.keyDown (some ⟨name⟩) false)
    let held : Event := .keyDown (some ⟨"Q"⟩) true
    let lift : Event := .keyUp (some ⟨"Q"⟩)
    let polls : List (List Event) :=
      [[.keyDown (some ⟨"Q"⟩) false, held],
        [lift, .keyDown (some ⟨"W"⟩) false, .keyDown (some ⟨"Escape"⟩) false,
          .keyDown (some ⟨"E"⟩) false]]
    let moves : List Move :=
      [.processor, press "Q", .processor, .event held, .refresh, .processor,
        .present, .event lift, press "W", .processor, press "Escape",
        .processor, press "E", .refresh]
    (moves.filter fun move => move ≠ .processor) <+: turns polls ∧
    ∃ session,
      openProgram "jump" [0x12, 0x00] 10 .warn
          (RandomSource.ofWords fun _ => 0) = .ok session ∧
        session.inputs moves =
          [[.setKey 4 true], [.setKey 4 false], [.setKey 5 true]] ∧
        (∀ x, Instruction.awaitKey x ∉
          session.machine.executions (session.batches moves).flatten) ∧
        (session.moveAll moves).machine.state.keypad.isDown 5 = true := by
  intro press held lift polls moves
  have order :
      (moves.filter fun move => move ≠ .processor) <+: turns polls := by
    decide
  obtain ⟨session, opened, jumps⟩ : ∃ session,
      openProgram "jump" [0x12, 0x00] 10 .warn
          (RandomSource.ofWords fun _ => 0) = .ok session ∧
        session.machine.executions (session.batches moves).flatten =
          List.replicate 5 (.jump 0x200) :=
    ⟨_, rfl, by decide +kernel⟩
  have undelivered : ∀ x, Instruction.awaitKey x ∉
      session.machine.executions (session.batches moves).flatten := by
    simp [jumps]
  obtain ⟨_, brought, _, keys⟩ := input_follows_events opened order
  obtain ⟨host, lies, last⟩ := keys undelivered (by decide) 5 (by decide)
  have under : (⟨"W"⟩ : HostKey) = host := (lies _).mp (by decide)
  subst under
  exact ⟨order, session, opened, brought.trans (by decide), undelivered,
    last.mpr (by decide)⟩

end Session

end ChipEight
