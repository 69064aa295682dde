import ChipEight.Layout
import ChipEight.Severity

/-!
# Options

What can be chosen on the command line: four settings that take a number, each
with a range of its own, and how much detail is reported.
-/

namespace ChipEight

namespace CommandLine

/-- A setting that takes a number. -/
inductive Setting
  /-- Instructions per second. -/
  | clockRate
  /-- Timer ticks and redraws per second. -/
  | timerRate
  /-- Pixels in a row of a block. -/
  | scale
  /-- The seed of the random source. -/
  | seed
  deriving DecidableEq

namespace Setting

def name : Setting → List Char
  | clockRate => "clock-hz".toList
  | timerRate => "timer-hz".toList
  | scale => "scale".toList
  | seed => "seed".toList

def all : List Setting :=
  [clockRate, timerRate, scale, seed]

def ofName? (name : List Char) : Option Setting :=
  all.find? fun setting => setting.name == name

def least : Setting → Nat
  | clockRate => 1
  | timerRate => 1
  | scale => 1
  | seed => 0

def greatest : Setting → Nat
  | clockRate => 4294967295
  | timerRate => 4294967295
  | scale => 64
  | seed => 18446744073709551615

/-- A setting takes a value. -/
def Takes (setting : Setting) (value : Nat) : Prop :=
  setting.least ≤ value ∧ value ≤ setting.greatest

instance (setting : Setting) : DecidablePred setting.Takes :=
  fun _ => inferInstanceAs (Decidable (_ ∧ _))

end Setting

/-- The settings made so far. -/
structure Choices where
  clockRate : Option Nat
  timerRate : Option Nat
  scale : Option Nat
  seed : Option Nat
  deriving DecidableEq

namespace Choices

def none : Choices :=
  { clockRate := Option.none, timerRate := Option.none,
    scale := Option.none, seed := Option.none }

def get (choices : Choices) : Setting → Option Nat
  | .clockRate => choices.clockRate
  | .timerRate => choices.timerRate
  | .scale => choices.scale
  | .seed => choices.seed

def set (choices : Choices) (value : Nat) : Setting → Choices
  | .clockRate => { choices with clockRate := some value }
  | .timerRate => { choices with timerRate := some value }
  | .scale => { choices with scale := some value }
  | .seed => { choices with seed := some value }

end Choices

/-- Everything a command line settles. -/
structure Options where
  program : List Char
  clockRate : Nat
  timerRate : Nat
  scale : Nat
  seed : Option Nat
  verbosity : Nat
  deriving DecidableEq

/-- The scale unless asked otherwise. -/
abbrev defaultScale : Nat := 10

namespace Options

/-- The options that follow from choices. -/
def ofChoices (program : List Char) (choices : Choices) (verbosity : Nat) :
    Options :=
  { program := program,
    clockRate := choices.clockRate.getD defaultClockRate,
    timerRate := choices.timerRate.getD defaultTimerRate,
    scale := choices.scale.getD defaultScale,
    seed := choices.seed,
    verbosity := verbosity }

def threshold (options : Options) : Severity :=
  Severity.ofVerbosity options.verbosity

end Options

end CommandLine

end ChipEight
