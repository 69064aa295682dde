/-!
# Severity of records

How important a record of a machine's life is.  Whoever listens chooses a
severity and hears the records that are at least as severe.
-/

namespace ChipEight

/-- The grades of importance, the most severe first. -/
inductive Severity
  | error
  | warn
  | info
  | debug
  | trace
  deriving DecidableEq

namespace Severity

/-- The place of a grade; the most severe is the first. -/
def rank : Severity → Nat
  | error => 0
  | warn => 1
  | info => 2
  | debug => 3
  | trace => 4

/-- The name of a grade on a record. -/
def label : Severity → String
  | error => "ERROR"
  | warn => "WARN"
  | info => "INFO"
  | debug => "DEBUG"
  | trace => "TRACE"

/-- The name of a grade as a choice of what to hear. -/
def filterName : Severity → String
  | error => "error"
  | warn => "warn"
  | info => "info"
  | debug => "debug"
  | trace => "trace"

def all : List Severity :=
  [error, warn, info, debug, trace]

def ofFilterName? (name : String) : Option Severity :=
  all.find? fun severity => severity.filterName == name

/-- Whether a listener that chose `threshold` hears a grade. -/
def heardAt (severity threshold : Severity) : Bool :=
  decide (severity.rank ≤ threshold.rank)

/-- The choice that follows from asking for more detail a number of times. -/
def ofVerbosity : Nat → Severity
  | 0 => warn
  | 1 => info
  | 2 => debug
  | _ => trace

end Severity

end ChipEight
