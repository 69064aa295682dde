import ChipEight.CommandLine.Options
import ChipEight.Display.Window
import ChipEight.Machine.Loading
import ChipEight.Machine.Step
import ChipEight.Session.Event
import ChipEight.Session.Notice

/-!
# Sessions

A program in a window.  Two loops share one machine: the *processor* steps it
over and over, and the *frame loop* handles events, lets the timers tick, takes
the frame if it should be shown, and shows it.  Each of these is one move, and
any order of moves that the two loops can come to is a life of the session.

The frame loop goes through phases, and a move that its phase does not allow
changes nothing.  The processor may move at any time.
-/

namespace ChipEight

/-- How far a turn of the frame loop is. -/
inductive Phase
  /-- Events are handled. -/
  | polling
  /-- The frame has been taken, if it was to be shown. -/
  | drawing (frame : Option Frame)
  /-- The loop has been left, perhaps because of an error. -/
  | ended (failure : Option LoadError)
  deriving DecidableEq

/-- A running program with its window. -/
structure Session where
  machine : Machine
  /-- The program, which a restart loads again. -/
  program : List UInt8
  window : Window
  /-- The severity from which on notices are kept. -/
  threshold : Severity
  phase : Phase
  /-- Whether the latest step of the processor waited for a key. -/
  waiting : Bool
  /-- The notices of the frame loop so far. -/
  frameNotices : Array Notice
  /-- The notices of the processor so far. -/
  processorNotices : Array Notice
  /-- The frames shown so far. -/
  shown : Array Frame

namespace Session

/-- Something that happens in a session at once. -/
inductive Move
  /-- The processor makes a step. -/
  | processor
  /-- The frame loop handles an event. -/
  | event (event : Event)
  /-- The frame loop lets the timers tick and takes the frame. -/
  | refresh
  /-- The frame loop shows the frame it has taken. -/
  | present
  deriving DecidableEq

def hasEnded (session : Session) : Bool :=
  match session.phase with
  | .ended _ => true
  | _ => false

/-- The session after the frame loop reported something. -/
def noteFrame (session : Session) (notices : List Notice) : Session :=
  { session with
    frameNotices :=
      session.frameNotices ++ Notice.heard session.threshold notices }

/-- The session after the processor reported something. -/
def noteProcessor (session : Session) (notices : List Notice) : Session :=
  { session with
    processorNotices :=
      session.processorNotices ++ Notice.heard session.threshold notices }

/-- Whether a step waited for a key. -/
def waits : Machine.Outcome → Bool
  | .awaiting => true
  | _ => false

/-- What the processor says about a step: the first of several waits is
announced. -/
def announcement (waiting : Bool) (outcome : Machine.Outcome) : List Notice :=
  if waits outcome && !waiting then [Notice.waitingForKey] else []

def stepProcessor (session : Session) : Session :=
  let response := session.machine.step
  let notices :=
    response.records.map .machine ++
      announcement session.waiting response.answer
  { session with
    machine := response.machine,
    waiting := waits response.answer }.noteProcessor notices

def restart (session : Session) : Session :=
  let cleared := session.machine.reset
  let loaded := cleared.machine.load session.program
  let records := cleared.records ++ loaded.records
  let notices := records.map Notice.machine
  match loaded.answer with
  | .ok () =>
    { session with machine := loaded.machine }.noteFrame
      (notices ++ [Notice.restarted])
  | .error failure =>
    { session with
      machine := loaded.machine,
      phase := .ended (some failure) }.noteFrame notices

/-- Does what an event calls for. -/
def act (session : Session) : Action → Session
  | .setKey key down =>
    let response := session.machine.setKey key down
    { session with machine := response.machine }.noteFrame
      (response.records.map .machine)
  | .restart => session.restart
  | .quit => { session with phase := .ended none }
  | .nothing => session

/-- Lets the timers tick and takes the frame. -/
def refresh (session : Session) : Session :=
  let ticked := session.machine.tick
  let taken := ticked.machine.takeFrame
  { session with
    machine := taken.machine,
    phase := .drawing taken.answer }.noteFrame
      (if ticked.answer then [Notice.beep] else [])

/-- Shows the frame that was taken and begins the next turn. -/
def present (session : Session) (frame : Option Frame) : Session :=
  match frame with
  | some frame =>
    { session with phase := .polling, shown := session.shown.push frame }
  | none => { session with phase := .polling }

def move (session : Session) (move : Move) : Session :=
  match move, session.phase with
  | .processor, _ => session.stepProcessor
  | .event event, .polling => session.act event.action
  | .refresh, .polling => session.refresh
  | .present, .drawing frame => session.present frame
  | _, _ => session

/-- The session after moves in order. -/
def moveAll (session : Session) (moves : List Move) : Session :=
  moves.foldl Session.move session

@[simp]
theorem moveAll_nil (session : Session) : session.moveAll [] = session := rfl

@[simp]
theorem moveAll_cons (session : Session) (move : Move) (rest : List Move) :
    session.moveAll (move :: rest) = (session.move move).moveAll rest := rfl

theorem moveAll_append (session : Session) (first second : List Move) :
    session.moveAll (first ++ second) =
      (session.moveAll first).moveAll second :=
  List.foldl_append

/-- What the window shows, once it has shown a frame. -/
def picture? (session : Session) : Option Picture :=
  session.shown.back?.map session.window.present

end Session

end ChipEight
