import ChipEight.CommandLine.Reader
import ChipEight.CommandLine.Token
import ChipEight.Text.Numeral

/-!
# The standard reader

Arguments are read from left to right and the first mistake found ends the
reading.  A mistake is not always found where it is made: a setting and the
program are only *settled*, that is, checked and taken over, when the next
option is acted on or the arguments end.  Before that happens, an argument that
makes no sense at all is found first.
-/

namespace ChipEight

namespace CommandLine

/-- An argument that has been read but not settled. -/
inductive Pending
  | program (text : List Char)
  | setting (setting : Setting) (value : Option (List Char))
  deriving DecidableEq

/-- How far the reading has come. -/
structure Reading where
  /-- Whether all further arguments are plain. -/
  literal : Bool
  pending : Option Pending
  /-- Whether a program has been read, settled or not. -/
  programRead : Bool
  program : Option (List Char)
  choices : Choices
  verbosity : Nat
  deriving DecidableEq

inductive Switch
  | verbose
  | help
  | version
  deriving DecidableEq

namespace Switch

def ofName? (name : List Char) : Option Switch :=
  if name = "verbose".toList then some verbose
  else if name = "help".toList then some help
  else if name = "version".toList then some version
  else none

def ofLetter? : Char → Option Switch
  | 'v' => some verbose
  | 'h' => some help
  | 'V' => some version
  | _ => none

end Switch

/-- The text of a number without its plus sign. -/
def unsigned : List Char → List Char
  | '+' :: rest => rest
  | text => text

/-- The value that a text gives to a setting: decimal digits, perhaps after a
plus sign, in the range of the setting. -/
def Setting.value? (setting : Setting) (text : List Char) : Option Nat :=
  (Numeral.read? 10 (unsigned text)).filter setting.Takes

/-- The program that a text names, if it is a text at all. -/
def programOf? : List Char → Option (List Char)
  | [] => none
  | first :: rest => some (first :: rest)

namespace Reading

def start : Reading :=
  { literal := false, pending := none, programRead := false, program := none,
    choices := Choices.none, verbosity := 0 }

/-- Makes a setting from the text of its value. -/
def choose (reading : Reading) (setting : Setting) (text : List Char) :
    Except Refusal Reading :=
  match reading.choices.get setting with
  | some _ => .error .repeatedSetting
  | none =>
    match setting.value? text with
    | some value =>
      .ok { reading with choices := reading.choices.set value setting }
    | none => .error .malformedValue

/-- Takes over the program that a text names. -/
def name (reading : Reading) (text : List Char) : Except Refusal Reading :=
  match programOf? text with
  | some program => .ok { reading with program := some program }
  | none => .error .missingValue

/-- Checks and takes over what is pending. -/
def settle (reading : Reading) : Except Refusal Reading :=
  match reading.pending with
  | none => .ok reading
  | some (.program text) => { reading with pending := none }.name text
  | some (.setting _ none) => .error .missingValue
  | some (.setting setting (some text)) =>
    { reading with pending := none }.choose setting text

/-- Counts so much more detail, as far as a byte can. -/
def count (reading : Reading) (more : Nat) : Reading :=
  { reading with verbosity := min 255 (reading.verbosity + more) }

/-- Acts on a switch. -/
def flip (reading : Reading) (switch : Switch) : Except Refusal Reading :=
  match switch with
  | .verbose => do
    let settled ← reading.settle
    .ok (settled.count 1)
  | .help => do
    let _ ← reading.settle
    .error .helpRequested
  | .version => do
    let _ ← reading.settle
    .error .versionRequested

def flipAll (reading : Reading) : List Char → Except Refusal Reading
  | [] => .ok reading
  | letter :: rest =>
    match Switch.ofLetter? letter with
    | none => .error .unknownArgument
    | some switch => do
      let next ← reading.flip switch
      next.flipAll rest

/-- Acts on a setting, whose value may come along or as the next argument. -/
def begin (reading : Reading) (setting : Setting)
    (value : Option (List Char)) : Except Refusal Reading :=
  match value with
  | some text => do
    let settled ← reading.settle
    settled.choose setting text
  | none => do
    let settled ← reading.settle
    .ok { settled with pending := some (.setting setting none) }

/-- Acts on a long option. -/
def long (reading : Reading) (name : List Char)
    (value : Option (List Char)) : Except Refusal Reading :=
  match Setting.ofName? name with
  | some setting => reading.begin setting value
  | none =>
    match Switch.ofName? name with
    | none => .error .unknownArgument
    | some switch =>
      match value with
      | some _ => .error .unexpectedValue
      | none => reading.flip switch

/-- Takes a plain argument as the program. -/
def positional (reading : Reading) (text : List Char) :
    Except Refusal Reading :=
  if reading.programRead then
    .error .unknownArgument
  else do
    let settled ← reading.settle
    .ok
      { settled with
        programRead := true,
        pending := some (.program text) }

/-- Takes a plain argument as the value of the setting before it, or else as
the program. -/
def plain (reading : Reading) (text : List Char) : Except Refusal Reading :=
  match reading.pending with
  | some (.setting setting none) =>
    if reading.literal then
      reading.positional text
    else
      .ok { reading with pending := some (.setting setting (some text)) }
  | _ => reading.positional text

/-- Acts on an argument of any form. -/
def act (reading : Reading) : Token → Except Refusal Reading
  | .plain text => reading.plain text
  | .terminator => .ok { reading with literal := true }
  | .long name value => reading.long name value
  | .short letters => reading.flipAll letters

def next (reading : Reading) (argument : List Char) :
    Except Refusal Reading :=
  if reading.literal then
    reading.plain argument
  else
    reading.act (Token.ofArgument argument)

def readAll (reading : Reading) : List (List Char) → Except Refusal Reading
  | [] => .ok reading
  | argument :: rest => do
    let following ← reading.next argument
    following.readAll rest

/-- What a settled reading found. -/
def gather (reading : Reading) : Except Refusal Findings :=
  match reading.program with
  | some program =>
    .ok
      { program := program,
        choices := reading.choices,
        details := UInt8.ofNat reading.verbosity }
  | none => .error .missingProgram

end Reading

/-- The reader of the command. -/
def Reader.standard : Reader where
  value? := Setting.value?
  program? := programOf?
  read arguments := do
    let reading ← Reading.start.readAll arguments
    let settled ← reading.settle
    settled.gather

/-- Reads the arguments after the name of the command. -/
def parse (arguments : List String) : Except Refusal Options :=
  Reader.standard.parse arguments

end CommandLine

end ChipEight
