import ChipEight.Session.Binding

/-!
# Events

What the windowing system reports, and what a session makes of it.  A key held
down reports itself again and again; only the first report counts.  Restarting
and quitting happen when their key goes down, and nothing when it comes up.
-/

namespace ChipEight

/-- A report of the windowing system. -/
inductive Event
  /-- A key went down, or is held down and repeats; some keys have no name. -/
  | keyDown (key : Option HostKey) (repeated : Bool)
  /-- A key came up. -/
  | keyUp (key : Option HostKey)
  /-- The window is to be closed. -/
  | closed
  | other
  deriving DecidableEq

/-- What a session does about an event. -/
inductive Action
  | setKey (key : UInt8) (down : Bool)
  | restart
  | quit
  | nothing
  deriving DecidableEq

namespace Command

/-- What follows from a command whose key went down. -/
def pressed : Command → Action
  | key name => .setKey name true
  | restart => .restart
  | quit => .quit

/-- What follows from a command whose key came up. -/
def lifted : Command → Action
  | key name => .setKey name false
  | restart => .nothing
  | quit => .nothing

end Command

namespace Event

/-- The command of a key that may have no name and may have no meaning. -/
def commandOf (key : Option HostKey) : Option Command :=
  key.bind HostKey.command?

def action : Event → Action
  | keyDown key false => ((commandOf key).map Command.pressed).getD .nothing
  | keyDown _ true => .nothing
  | keyUp key => ((commandOf key).map Command.lifted).getD .nothing
  | closed => .quit
  | other => .nothing

end Event

end ChipEight
