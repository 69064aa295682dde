import ChipEight.Session.Opening

/-!
# Scripted sessions

A script is a user who waits for something and then does something.  It is
played turn by turn: the processor makes a number of steps, the user looks at
the session and acts, the timers tick and the frame is shown.  At its end the
user closes the window.

The processor makes the same number of steps in every turn.  This shows what a
session comes to when its programs come to rest between two acts of the user,
whatever the speed of the two loops.
-/

namespace ChipEight

namespace Session

/-- One thing that a user does. -/
inductive ScriptStep
  /-- Waits until so many frames have been shown in all. -/
  | untilShown (count : Nat)
  /-- Waits until so many notices in all begin with a text. -/
  | untilNoticed (beginning : String) (count : Nat)
  | idle (turns : Nat)
  | cause (event : Event)
  deriving DecidableEq

/-- How many notices of a session begin with a text. -/
def countNotices (session : Session) (beginning : String) : Nat :=
  let begins : Notice → Bool :=
    fun notice => beginning.toList.isPrefixOf notice.text.toList
  session.frameNotices.toList.countP begins +
    session.processorNotices.toList.countP begins

/-- What the user does within one turn: all steps up to the next one that has
to wait.  The answer holds the steps that are left. -/
def poll (session : Session) : List ScriptStep → Session × List ScriptStep
  | [] => (session.move (.event .closed), [])
  | .untilShown count :: rest =>
    if count ≤ session.shown.size then session.poll rest
    else (session, .untilShown count :: rest)
  | .untilNoticed beginning count :: rest =>
    if count ≤ session.countNotices beginning then session.poll rest
    else (session, .untilNoticed beginning count :: rest)
  | .idle 0 :: rest => session.poll rest
  | .idle (turns + 1) :: rest => (session, .idle turns :: rest)
  | .cause event :: rest => (session.move (.event event)).poll rest

/-- The session after some steps of the processor. -/
def runProcessor (session : Session) : Nat → Session
  | 0 => session
  | count + 1 => (session.move .processor).runProcessor count

/-- Plays a script for at most a number of turns, or until the session
ends. -/
def play (stepsPerTurn : Nat) (session : Session)
    (script : List ScriptStep) : Nat → Session
  | 0 => session
  | turns + 1 =>
    let (polled, rest) := (session.runProcessor stepsPerTurn).poll script
    if polled.hasEnded then
      polled
    else
      play stepsPerTurn ((polled.move .refresh).move .present) rest turns

end Session

end ChipEight
