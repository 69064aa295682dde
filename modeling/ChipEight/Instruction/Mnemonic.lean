import ChipEight.Instruction
import ChipEight.Text.Numeral

/-!
# Mnemonics

The assembly text of an instruction: the name of an operation, then its
operands with commas between them, as in `DRW V1, V2, 5`.  Many instructions
share a name and are told apart by their operands.
-/

namespace ChipEight

/-- An operand as assembly text shows it. -/
inductive Operand
  /-- A register, as in `VA`. -/
  | register (name : UInt8)
  /-- A constant of at least two digits. -/
  | byte (value : UInt8)
  /-- A number of at least one digit. -/
  | digit (value : UInt8)
  /-- An address of at least three digits. -/
  | address (value : Word)
  | index
  /-- Memory from the index register on. -/
  | memory
  | delay
  | sound
  | key
  | font
  | decimal
  deriving DecidableEq

namespace Operand

def characters : Operand → List Char
  | register name => 'V' :: Numeral.hexadecimal 1 name.toNat
  | byte value => Numeral.hexadecimal 2 value.toNat
  | digit value => Numeral.hexadecimal 1 value.toNat
  | address value => Numeral.hexadecimal 3 value.toNat
  | index => ['I']
  | memory => ['[', 'I', ']']
  | delay => ['D', 'T']
  | sound => ['S', 'T']
  | key => ['K']
  | font => ['F']
  | decimal => ['B']

end Operand

/-- The parts of a line of assembly text. -/
structure Assembly where
  operation : String
  operands : List Operand
  deriving DecidableEq

namespace Assembly

/-- Operands with a comma and a blank between any two. -/
def separated : List Operand → List Char
  | [] => []
  | [operand] => operand.characters
  | operand :: next :: rest =>
    operand.characters ++ [',', ' '] ++ separated (next :: rest)

def characters (line : Assembly) : List Char :=
  match line.operands with
  | [] => line.operation.toList
  | operands => line.operation.toList ++ [' '] ++ separated operands

end Assembly

namespace Instruction

/-- The assembly line of an instruction. -/
def assembly : Instruction → Assembly
  | clearFrame => ⟨"CLS", []⟩
  | leave => ⟨"RET", []⟩
  | jump target => ⟨"JP", [.address target]⟩
  | call target => ⟨"CALL", [.address target]⟩
  | skipIfByte x constant => ⟨"SE", [.register x, .byte constant]⟩
  | skipUnlessByte x constant => ⟨"SNE", [.register x, .byte constant]⟩
  | skipIfEqual x y => ⟨"SE", [.register x, .register y]⟩
  | setByte x constant => ⟨"LD", [.register x, .byte constant]⟩
  | addByte x constant => ⟨"ADD", [.register x, .byte constant]⟩
  | copy x y => ⟨"LD", [.register x, .register y]⟩
  | union x y => ⟨"OR", [.register x, .register y]⟩
  | intersect x y => ⟨"AND", [.register x, .register y]⟩
  | differ x y => ⟨"XOR", [.register x, .register y]⟩
  | add x y => ⟨"ADD", [.register x, .register y]⟩
  | subtract x y => ⟨"SUB", [.register x, .register y]⟩
  | halve x => ⟨"SHR", [.register x]⟩
  | subtractFrom x y => ⟨"SUBN", [.register x, .register y]⟩
  | double x => ⟨"SHL", [.register x]⟩
  | skipUnlessEqual x y => ⟨"SNE", [.register x, .register y]⟩
  | setIndex address => ⟨"LD", [.index, .address address]⟩
  | jumpBeyond base => ⟨"JP", [.register 0, .address base]⟩
  | random x mask => ⟨"RND", [.register x, .byte mask]⟩
  | draw x y height => ⟨"DRW", [.register x, .register y, .digit height]⟩
  | skipIfDown x => ⟨"SKP", [.register x]⟩
  | skipUnlessDown x => ⟨"SKNP", [.register x]⟩
  | readDelay x => ⟨"LD", [.register x, .delay]⟩
  | awaitKey x => ⟨"LD", [.register x, .key]⟩
  | setDelay x => ⟨"LD", [.delay, .register x]⟩
  | setSound x => ⟨"LD", [.sound, .register x]⟩
  | advanceIndex x => ⟨"ADD", [.index, .register x]⟩
  | findGlyph x => ⟨"LD", [.font, .register x]⟩
  | storeDecimal x => ⟨"LD", [.decimal, .register x]⟩
  | storeRegisters x => ⟨"LD", [.memory, .register x]⟩
  | loadRegisters x => ⟨"LD", [.register x, .memory]⟩

def mnemonicCharacters (instruction : Instruction) : List Char :=
  instruction.assembly.characters

def mnemonic (instruction : Instruction) : String :=
  String.ofList instruction.mnemonicCharacters

end Instruction

end ChipEight
