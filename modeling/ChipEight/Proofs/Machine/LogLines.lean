import ChipEight.Instruction.Encoding
import ChipEight.Machine.Record
import ChipEight.Proofs.Text.Separators
import Mathlib.Data.List.Basic

/-!
# Lines of a log

What a machine reports is written as lines of text, and whoever reads them gets
back what was reported: the values of a register dump, the fault of a recovery
and the place and the word of a decoded instruction.  Every line is read from
its left end, where each part is over at a character that it cannot contain.
-/

namespace ChipEight

namespace RegisterDump

theorem flatten_valuePieces (values : List UInt8) :
    (valuePieces values).flatten =
      [' '].intercalate
        (values.map fun value => Numeral.hexadecimal 2 value.toNat) := by
  induction values with
  | nil => rfl
  | cons value rest ih =>
      cases rest with
      | nil => simp [valuePieces]
      | cons next rest =>
          simp only [valuePieces, List.flatten_cons, ih, List.map_cons,
            List.intercalate_cons_cons, List.append_assoc]

theorem eq_of_flatten_valuePieces {first second : RegisterFile}
    (same : (valuePieces first.values.toList).flatten =
      (valuePieces second.values.toList).flatten) :
    first = second := by
  have free : ∀ registers : RegisterFile,
      ∀ part ∈ registers.values.toList.map fun value =>
        Numeral.hexadecimal 2 value.toNat, ' ' ∉ part := by
    intro registers part member blank
    obtain ⟨value, _, rfl⟩ := List.mem_map.mp member
    exact Numeral.not_mem_hexadecimal (by decide) _ _ blank
  have filled : ∀ registers : RegisterFile,
      (registers.values.toList.map fun value =>
        Numeral.hexadecimal 2 value.toNat) ≠ [] := by
    intro registers empty
    have size := congrArg List.length empty
    simp at size
  rw [flatten_valuePieces, flatten_valuePieces] at same
  have texts := eq_of_intercalate_eq (free first) (free second) (filled first)
    (filled second) same
  have injective : Function.Injective fun value : UInt8 =>
      Numeral.hexadecimal 2 value.toNat :=
    fun _ _ equal => UInt8.toNat_inj.mp (Numeral.eq_of_hexadecimal_eq equal)
  have values := List.map_injective_iff.mpr injective texts
  exact congrArg RegisterFile.mk (Vector.toList_inj.mp values)

theorem characters_eq (dump : RegisterDump) :
    dump.characters =
      'p' :: 'c' :: ':' :: (Numeral.hexadecimal 4 dump.counter.toNat ++
      ' ' :: 'i' :: ':' :: (Numeral.hexadecimal 4 dump.index.toNat ++
      ' ' :: 's' :: 'p' :: ':' :: (Numeral.decimal dump.depth.toNat ++
      ' ' :: 'd' :: 't' :: ':' :: (Numeral.hexadecimal 2 dump.delay.toNat ++
      ' ' :: 's' :: 't' :: ':' :: (Numeral.hexadecimal 2 dump.sound.toNat ++
      ' ' :: 'v' :: ':' :: '[' ::
        ((valuePieces dump.registers.values.toList).flatten ++ [']'])))))) := by
  simp [characters, pieces]

theorem characters_injective : Function.Injective characters := by
  intro first second same
  have foreign : ' ' ∉ Numeral.symbols := by decide
  simp only [characters_eq, List.cons.injEq, true_and,
    Numeral.hexadecimal_append_eq_iff foreign,
    Numeral.decimal_append_eq_iff foreign, List.append_cancel_right_eq,
    UInt8.toNat_inj, UInt16.toNat_inj] at same
  obtain ⟨counter, index, depth, delay, sound, values⟩ := same
  rcases first with ⟨_, _, _, _, _, _⟩
  rcases second with ⟨_, _, _, _, _, _⟩
  cases counter
  cases index
  cases depth
  cases delay
  cases sound
  cases eq_of_flatten_valuePieces values
  rfl

end RegisterDump

namespace Fault

theorem number_eq_iff {width : Nat} {first second : Word} :
    number width first = number width second ↔ first = second := by
  constructor
  · intro same
    simp only [number, List.append_cancel_left_eq] at same
    exact UInt16.toNat_inj.mp (Numeral.eq_of_hexadecimal_eq same)
  · rintro rfl
    rfl

/-- The letter that the message of a fault begins with. -/
def initial : Fault → Char
  | unknownOpcode _ _ => 'u'
  | stackOverflow _ => 'c'
  | stackUnderflow _ => 'r'
  | outOfRange _ => 'm'
  | protectedWrite _ => 'w'

theorem head?_characters (fault : Fault) :
    fault.characters.head? = some fault.initial := by
  cases fault <;> rfl

/-- A fault is told by its message: no two kinds begin with the same letter,
and within a kind the numbers are read off. -/
theorem characters_injective : Function.Injective characters := by
  intro first second same
  have letters : first.initial = second.initial := by
    have heads := congrArg List.head? same
    rw [head?_characters, head?_characters] at heads
    exact Option.some.inj heads
  cases first with
  | unknownOpcode word counter =>
      cases second with
      | unknownOpcode other place =>
          have foreign : ' ' ∉ Numeral.symbols := by decide
          change "unknown opcode ".toList ++ number 4 word ++
              " at ".toList ++ number 3 counter =
            "unknown opcode ".toList ++ number 4 other ++
              " at ".toList ++ number 3 place at same
          simp only [List.append_assoc, List.append_cancel_left_eq] at same
          simp [number, Numeral.hexadecimal_append_eq_iff foreign] at same
          obtain ⟨words, counters⟩ := same
          rw [UInt16.toNat_inj.mp words,
            UInt16.toNat_inj.mp (Numeral.eq_of_hexadecimal_eq counters)]
      | _ => simp [initial] at letters
  | stackOverflow counter =>
      cases second with
      | stackOverflow other =>
          rw [number_eq_iff.mp (List.append_cancel_left same)]
      | _ => simp [initial] at letters
  | stackUnderflow counter =>
      cases second with
      | stackUnderflow other =>
          rw [number_eq_iff.mp (List.append_cancel_left same)]
      | _ => simp [initial] at letters
  | outOfRange address =>
      cases second with
      | outOfRange other =>
          rw [number_eq_iff.mp (List.append_cancel_left same)]
      | _ => simp [initial] at letters
  | protectedWrite address =>
      cases second with
      | protectedWrite other =>
          rw [number_eq_iff.mp (List.append_cancel_left same)]
      | _ => simp [initial] at letters

theorem parenthesis_not_mem_characters (fault : Fault) :
    '(' ∉ fault.characters := by
  have plain : ∀ width word, '(' ∉ number width word := by
    intro width word
    apply List.not_mem_append (by decide)
    exact Numeral.not_mem_hexadecimal (by decide) width _
  cases fault with
  | unknownOpcode word counter =>
      apply List.not_mem_append _ (plain 3 counter)
      apply List.not_mem_append _ (by decide)
      exact List.not_mem_append (by decide) (plain 4 word)
  | stackOverflow counter | stackUnderflow counter =>
      exact List.not_mem_append (by decide) (plain 3 counter)
  | outOfRange address =>
      exact List.not_mem_append (by decide) (plain 4 address)
  | protectedWrite address =>
      exact List.not_mem_append (by decide) (plain 3 address)

end Fault

namespace Machine.Record

theorem eq_of_recoveredCharacters_eq {fault other : Fault}
    {dump shown : RegisterDump}
    (same : recoveredCharacters fault dump =
      recoveredCharacters other shown) :
    fault = other ∧ dump = shown := by
  have opening : ∀ (fault : Fault) (dump : RegisterDump),
      recoveredCharacters fault dump =
        (fault.characters ++ [' ']) ++ '(' :: (dump.characters ++ [')']) := by
    intro fault dump
    simp only [recoveredCharacters, List.append_assoc, List.cons_append,
      List.nil_append]
  have free : ∀ fault : Fault, '(' ∉ fault.characters ++ [' '] :=
    fun fault =>
      List.not_mem_append fault.parenthesis_not_mem_characters (by decide)
  rw [opening, opening, append_cons_eq_iff (free fault) (free other)] at same
  obtain ⟨faults, dumps⟩ := same
  exact ⟨Fault.characters_injective (List.append_cancel_right faults),
    RegisterDump.characters_injective (List.append_cancel_right dumps)⟩

/-- The word of a decoded instruction is written before its mnemonic, so the
mnemonic may be anything that the word decides. -/
theorem eq_of_decodedCharacters_eq {word other : Word}
    {instruction found : Instruction} {dump shown : RegisterDump}
    (decoded : Instruction.decode word = some instruction)
    (decodedOther : Instruction.decode other = some found)
    (same : decodedCharacters word instruction dump =
      decodedCharacters other found shown) :
    word = other ∧ dump = shown := by
  have foreign : ' ' ∉ Numeral.symbols := by decide
  have colon : ':' ∉ Numeral.symbols := by decide
  simp only [decodedCharacters, List.append_assoc, List.cons_append,
    List.nil_append, Numeral.hexadecimal_append_eq_iff colon,
    Numeral.hexadecimal_append_eq_iff foreign, List.cons.injEq, true_and,
    UInt16.toNat_inj] at same
  obtain ⟨_, rfl, behind⟩ := same
  cases decoded.symm.trans decodedOther
  simp only [List.append_cancel_left_eq, List.cons.injEq, true_and] at behind
  exact ⟨rfl, RegisterDump.characters_injective
    (List.append_cancel_right behind)⟩

/-- Lines of a log tell what they are about.  Two register dumps have the same
text exactly if all values that they show are equal, and two faults have the
same message exactly if they are the same.  A recovery tells its fault and the
values dumped; a decoded instruction tells its place, its word and the values
dumped. -/
theorem log_lines_uniquely_readable :
    (∀ first second : State,
      first.dump.text = second.dump.text ↔
        first.counter = second.counter ∧ first.index = second.index ∧
          first.stack.depth = second.stack.depth ∧
          first.timers.delay = second.timers.delay ∧
          first.timers.sound = second.timers.sound ∧
          first.registers = second.registers) ∧
    (∀ first second : Fault,
      first.message = second.message ↔ first = second) ∧
    (∀ (fault other : Fault) (repeated again : Bool) (first second : State),
      (recovered fault repeated first.dump).text =
          (recovered other again second.dump).text →
        fault = other ∧ first.dump = second.dump) ∧
    ∀ (word other : Word) (instruction found : Instruction)
      (first second : State),
      Instruction.decode word = some instruction →
      Instruction.decode other = some found →
      (decoded word instruction first.dump).text =
          (decoded other found second.dump).text →
        first.counter = second.counter ∧ word = other ∧
          first.dump = second.dump := by
  refine ⟨?dumps, ?faults, ?recoveries, ?instructions⟩
  case dumps =>
    intro first second
    rw [RegisterDump.text, RegisterDump.text, String.ofList_inj,
      RegisterDump.characters_injective.eq_iff]
    simp only [State.dump, RegisterDump.mk.injEq]
  case faults =>
    intro first second
    rw [Fault.message, Fault.message, String.ofList_inj,
      Fault.characters_injective.eq_iff]
  case recoveries =>
    intro fault other repeated again first second same
    exact eq_of_recoveredCharacters_eq (String.ofList_injective same)
  case instructions =>
    intro word other instruction found first second decoded decodedOther same
    obtain ⟨words, dumps⟩ := eq_of_decodedCharacters_eq decoded decodedOther
      (String.ofList_injective same)
    exact ⟨congrArg RegisterDump.counter dumps, words, dumps⟩

/-- Two states that differ in memory leave the same line, and their dumps are
the same. -/
theorem log_lines_uniquely_readable_of_blank :
    let first := State.initial
    let second := { State.initial with memory := Memory.blank }
    let line := fun state : State =>
      (decoded 0x8126 (.halve 1) state.dump).text
    Instruction.decode 0x8126 = some (.halve 1) ∧ line first = line second ∧
      first.dump = second.dump := by
  intro first second line
  have decoded : Instruction.decode 0x8126 = some (.halve 1) := by decide
  have unseen : ∀ (state : State) (memory : Memory),
      state.dump = { state with memory := memory }.dump := fun _ _ => rfl
  have same : line first = line second :=
    congrArg (fun dump => (Record.decoded 0x8126 (.halve 1) dump).text)
      (unseen State.initial Memory.blank)
  obtain ⟨_, _, dumps⟩ := log_lines_uniquely_readable.2.2.2 0x8126 0x8126
    (.halve 1) (.halve 1) first second decoded decoded same
  exact ⟨decoded, same, dumps⟩

end Machine.Record

end ChipEight
