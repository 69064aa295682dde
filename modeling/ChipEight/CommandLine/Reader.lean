import ChipEight.CommandLine.Options

/-!
# Readers of command lines

A reader finds out what the arguments of a command line give: a program, values
of settings, and how often more detail was asked for.  How it does so is its own
affair.  What the options are follows from what it found, where a setting that
was left out has its default.
-/

namespace ChipEight

namespace CommandLine

/-- Why reading ended without options. -/
inductive Refusal
  /-- A value is missing or empty. -/
  | missingValue
  /-- An argument is not known, or is a second program. -/
  | unknownArgument
  | repeatedSetting
  /-- A value is not one that the setting takes. -/
  | malformedValue
  /-- A value was given to an option that takes none. -/
  | unexpectedValue
  | missingProgram
  | helpRequested
  | versionRequested
  deriving DecidableEq

/-- What the arguments of a command line give. -/
structure Findings where
  program : List Char
  choices : Choices
  /-- How often more detail was asked for. -/
  details : UInt8
  deriving DecidableEq

def Options.ofFindings (found : Findings) : Options :=
  ofChoices found.program found.choices found.details.toNat

/-- A reader of values, of names of programs and of whole command lines. -/
structure Reader where
  /-- The value that a text gives to a setting. -/
  value? : Setting → List Char → Option Nat
  /-- The program that a text names. -/
  program? : List Char → Option (List Char)
  /-- What the arguments after the name of the command give. -/
  read : List (List Char) → Except Refusal Findings

namespace Reader

/-- The options that the arguments after the name of the command ask for. -/
def parse (reader : Reader) (arguments : List String) :
    Except Refusal Options :=
  (reader.read (arguments.map String.toList)).map Options.ofFindings

end Reader

end CommandLine

end ChipEight
