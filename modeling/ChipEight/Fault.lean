import ChipEight.Layout
import ChipEight.Text.Numeral

/-!
# Faults and crashes

A *fault* is a mistake of the program that the machine notices and recovers
from.  A *crash* is a computation that has no result at all: a program counter
past the last word, or a slot that does not exist.  What stops an instruction
is one or the other.
-/

namespace ChipEight

/-- The mistakes of a program that the machine recovers from. -/
inductive Fault
  /-- No instruction has this word; it was found at `counter`. -/
  | unknownOpcode (word counter : Word)
  /-- A call at `counter` found the call stack full. -/
  | stackOverflow (counter : Word)
  /-- A return at `counter` found the call stack empty. -/
  | stackUnderflow (counter : Word)
  /-- The first address past the end of memory that was asked for. -/
  | outOfRange (address : Word)
  /-- The first address of the font table that was to be written. -/
  | protectedWrite (address : Word)
  deriving DecidableEq

namespace Fault

/-- A hexadecimal number as faults show it. -/
def number (width : Nat) (word : Word) : List Char :=
  ['0', 'x'] ++ Numeral.hexadecimal width word.toNat

def characters : Fault → List Char
  | unknownOpcode word counter =>
    "unknown opcode ".toList ++ number 4 word ++ " at ".toList ++
      number 3 counter
  | stackOverflow counter =>
    "call stack overflow at ".toList ++ number 3 counter
  | stackUnderflow counter =>
    "return with an empty call stack at ".toList ++ number 3 counter
  | outOfRange address =>
    "memory access out of range at ".toList ++ number 4 address
  | protectedWrite address =>
    "write into the font table at ".toList ++ number 3 address

def message (fault : Fault) : String :=
  String.ofList fault.characters

end Fault

/-- The computations of an instruction that have no result. -/
inductive Crash
  /-- The next program counter does not fit into a word. -/
  | counterOverflow
  /-- One of sixteen registers or stack slots was asked for by this number. -/
  | indexOutOfBounds (index : Nat)
  deriving DecidableEq

namespace Crash

def message : Crash → String
  | counterOverflow => "attempt to add with overflow"
  | indexOutOfBounds index =>
    "index out of bounds: the len is 16 but the index is " ++
      String.ofList (Numeral.decimal index)

end Crash

/-- What keeps an instruction from having a next state. -/
inductive Stop
  | fault (cause : Fault)
  | crash (cause : Crash)
  deriving DecidableEq

end ChipEight
