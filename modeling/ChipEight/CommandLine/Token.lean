/-!
# Arguments as tokens

An argument that begins with a dash is an option, and all others are plain.  A
lone dash is plain too.  Two dashes alone end the options; more after two
dashes is one long option, which may bring a value along after an equals sign;
more after one dash is a group of short options of one letter each.
-/

namespace ChipEight

namespace CommandLine

/-- The form of an argument. -/
inductive Token
  /-- Text that is no option. -/
  | plain (text : List Char)
  | terminator
  /-- A long option and the value written to it, if there is one. -/
  | long (name : List Char) (value : Option (List Char))
  /-- Short options in order. -/
  | short (letters : List Char)
  deriving DecidableEq

namespace Token

/-- Splits a long option at its first equals sign. -/
def ofLong (text : List Char) : Token :=
  let name := text.takeWhile (· != '=')
  match text.drop name.length with
  | [] => long name none
  | _ :: value => long name (some value)

/-- The form of an argument that may be an option. -/
def ofArgument (argument : List Char) : Token :=
  match argument with
  | ['-'] => plain argument
  | ['-', '-'] => terminator
  | '-' :: '-' :: text => ofLong text
  | '-' :: letters => short letters
  | _ => plain argument

end Token

end CommandLine

end ChipEight
