/-!
# Dimensions of the machine

The fixed sizes and addresses of a CHIP-8 machine, and the rates at which it
usually runs.
-/

namespace ChipEight

/-- A machine word: an instruction, an address or the index register. -/
abbrev Word := UInt16

abbrev memorySize : Nat := 4096

/-- Where programs are loaded and where a new machine starts. -/
abbrev programStart : Word := 0x200

/-- Bytes between the start of programs and the end of memory. -/
abbrev programCapacity : Nat := 3584

abbrev fontStart : Word := 0x50

/-- One past the last address of the font table. -/
abbrev fontEnd : Word := 0xA0

/-- Rows, and so bytes, of one glyph of the font. -/
abbrev glyphHeight : Nat := 5

abbrev displayWidth : Nat := 64

abbrev displayHeight : Nat := 32

abbrev registerCount : Nat := 16

/-- Return addresses the call stack has slots for. -/
abbrev stackCapacity : Nat := 16

abbrev keyCount : Nat := 16

/-- Instructions per second unless asked otherwise. -/
abbrev defaultClockRate : Nat := 500

/-- Timer ticks per second unless asked otherwise. -/
abbrev defaultTimerRate : Nat := 60

end ChipEight
