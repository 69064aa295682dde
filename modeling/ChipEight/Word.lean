import ChipEight.Layout

/-!
# Instruction words

An instruction is one word, stored with its high byte first.  Its leading digit
names a family of operations and the other three digits hold operands, alone or
together.  All parts are quotients and remainders of the word.
-/

namespace ChipEight

namespace Word

/-- The leading hexadecimal digit, which every instruction is selected by. -/
def family (word : Word) : UInt8 :=
  (word / 0x1000).toUInt8

/-- The second digit, naming the register Vx. -/
def x (word : Word) : UInt8 :=
  (word / 0x100 % 0x10).toUInt8

/-- The third digit, naming the register Vy. -/
def y (word : Word) : UInt8 :=
  (word / 0x10 % 0x10).toUInt8

/-- The last digit, a small number or the name of an operation. -/
def n (word : Word) : UInt8 :=
  (word % 0x10).toUInt8

/-- The low byte, a constant or the name of an operation. -/
def nn (word : Word) : UInt8 :=
  (word % 0x100).toUInt8

/-- The last three digits, an address. -/
def nnn (word : Word) : Word :=
  word % 0x1000

/-- The word whose bytes are stored as `high` and then `low`. -/
def ofBytes (high low : UInt8) : Word :=
  high.toUInt16 * 0x100 + low.toUInt16

/-- The byte of a word that is stored first. -/
def high (word : Word) : UInt8 :=
  (word / 0x100).toUInt8

/-- The byte of a word that is stored second. -/
def low (word : Word) : UInt8 :=
  word.toUInt8

end Word

end ChipEight
