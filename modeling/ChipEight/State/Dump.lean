import ChipEight.State
import ChipEight.Text.Sink

/-!
# Register dumps

A line that shows the registers of a machine, such as
`pc:0200 i:0000 sp:0 dt:00 st:00 v:[AB 00 .. 01]`.  A dump holds just the
values that the line shows; memory, frame, keypad and the slots of the stack
are not among them.
-/

namespace ChipEight

/-- The values a dump shows. -/
structure RegisterDump where
  counter : Word
  index : Word
  depth : UInt8
  delay : UInt8
  sound : UInt8
  registers : RegisterFile
  deriving DecidableEq

namespace RegisterDump

/-- The values of registers with a blank between any two, in pieces. -/
def valuePieces : List UInt8 → List (List Char)
  | [] => []
  | [value] => [Numeral.hexadecimal 2 value.toNat]
  | value :: next :: rest =>
    Numeral.hexadecimal 2 value.toNat :: [' '] :: valuePieces (next :: rest)

/-- The line in the pieces it is written by. -/
def pieces (dump : RegisterDump) : List (List Char) :=
  ["pc:".toList, Numeral.hexadecimal 4 dump.counter.toNat,
    " i:".toList, Numeral.hexadecimal 4 dump.index.toNat,
    " sp:".toList, Numeral.decimal dump.depth.toNat,
    " dt:".toList, Numeral.hexadecimal 2 dump.delay.toNat,
    " st:".toList, Numeral.hexadecimal 2 dump.sound.toNat,
    " v:[".toList] ++
    valuePieces dump.registers.values.toList ++ [[']']]

def characters (dump : RegisterDump) : List Char :=
  dump.pieces.flatten

def text (dump : RegisterDump) : String :=
  String.ofList dump.characters

/-- Writes the line to a sink, which may run out of room. -/
def writeTo (dump : RegisterDump) (sink : Sink) : Sink × Bool :=
  sink.writeAll dump.pieces

end RegisterDump

namespace State

/-- The values that a dump of a state shows. -/
def dump (state : State) : RegisterDump :=
  { counter := state.counter,
    index := state.index,
    depth := state.stack.depth,
    delay := state.timers.delay,
    sound := state.timers.sound,
    registers := state.registers }

end State

end ChipEight
