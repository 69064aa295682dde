import ChipEight.Instruction.Mnemonic
import ChipEight.Severity
import ChipEight.State.Dump

/-!
# Records of a machine

What a machine reports while it runs.  A record holds the values it is about;
its text and its severity follow from them.
-/

namespace ChipEight

namespace Machine

inductive Record
  /-- An instruction was decoded; the dump shows the state before it. -/
  | decoded (word : Word) (instruction : Instruction) (dump : RegisterDump)
  /-- The machine recovered from a fault, which the step before may have had
  too; the dump shows the state after the recovery. -/
  | recovered (fault : Fault) (repeated : Bool) (dump : RegisterDump)
  | reset
  /-- A program of some bytes was placed in memory. -/
  | loaded (size : Nat)
  /-- A byte that names no key was to be pressed or released. -/
  | keyIgnored (key : UInt8)
  deriving DecidableEq

namespace Record

/-- The severity of a record.  A fault is a warning the first time and detail
when it repeats. -/
def severity : Record → Severity
  | decoded _ _ _ => .trace
  | recovered _ repeated _ => if repeated then .debug else .warn
  | reset => .debug
  | loaded _ => .debug
  | keyIgnored _ => .debug

/-- The text of a decoded instruction: where it is, its word, its mnemonic and
the registers before it. -/
def decodedCharacters (word : Word) (instruction : Instruction)
    (dump : RegisterDump) : List Char :=
  Numeral.hexadecimal 3 dump.counter.toNat ++ [':', ' '] ++
    Numeral.hexadecimal 4 word.toNat ++ [' '] ++
    instruction.mnemonicCharacters ++ [' ', '['] ++ dump.characters ++ [']']

/-- The text of a recovery: the fault and the registers after it. -/
def recoveredCharacters (fault : Fault) (dump : RegisterDump) : List Char :=
  fault.characters ++ [' ', '('] ++ dump.characters ++ [')']

def characters : Record → List Char
  | decoded word instruction dump =>
    decodedCharacters word instruction dump
  | recovered fault _ dump => recoveredCharacters fault dump
  | reset => "machine reset".toList
  | loaded size =>
    "loaded ".toList ++ Numeral.decimal size ++ " byte program".toList
  | keyIgnored key =>
    "ignoring key 0x".toList ++ Numeral.hexadecimal 2 key.toNat

def text (record : Record) : String :=
  String.ofList record.characters

end Record

end Machine

end ChipEight
