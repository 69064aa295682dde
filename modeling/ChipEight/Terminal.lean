import ChipEight.CommandLine.Parser
import ChipEight.Session

/-!
# The terminal

What a session looks like on a terminal: a frame becomes lines of text, and a
line of input becomes an event.  The line `+Q` means that the key named `Q`
goes down, `-Q` that it comes up again, and `.` closes the window.
-/

namespace ChipEight

namespace Terminal

/-- The text of a cell, about as wide as it is high. -/
def cellCharacters (cell : UInt8) : List Char :=
  if cell = 0 then [' ', ' '] else ['#', '#']

/-- The lines of a frame. -/
def frameLines (frame : Frame) : List String :=
  frame.rows.map fun cells =>
    String.ofList (cells.flatMap cellCharacters)

/-- The event that a line of input means. -/
def eventOfLine (line : List Char) : Event :=
  match line with
  | '+' :: name => .keyDown (some ⟨String.ofList name⟩) false
  | '-' :: name => .keyUp (some ⟨String.ofList name⟩)
  | ['.'] => .closed
  | _ => .other

/-- The line of a notice. -/
def noticeLine (notice : Notice) : String :=
  "[" ++ notice.severity.label ++ "] " ++ notice.text

/-- How the command is used. -/
def usage : String :=
  "usage: chip-eight [OPTIONS] <ROM>\n\n" ++
  "  --clock-hz N   instructions executed per second\n" ++
  "  --timer-hz N   timer ticks and redraws per second\n" ++
  "  --scale N      size of a cell, from 1 to 64\n" ++
  "  --seed N       seed of the random numbers\n" ++
  "  -v, --verbose  report more; repeat for more detail\n" ++
  "  -h, --help     show this text\n" ++
  "  -V, --version  show the version"

def version : String :=
  "chip-eight 0.1.0"

/-- What is said when the command line gives no options. -/
def refusalText : CommandLine.Refusal → String
  | .missingValue => "error: a value is missing"
  | .unknownArgument => "error: an argument is not expected"
  | .repeatedSetting => "error: an option is used more than once"
  | .malformedValue => "error: a value is not valid"
  | .unexpectedValue => "error: an option takes no value"
  | .missingProgram => "error: no rom is given"
  | .helpRequested => usage
  | .versionRequested => version

/-- Whether the command line asked for a text and got it. -/
def isAnswered : CommandLine.Refusal → Bool
  | .helpRequested => true
  | .versionRequested => true
  | _ => false

end Terminal

end ChipEight
