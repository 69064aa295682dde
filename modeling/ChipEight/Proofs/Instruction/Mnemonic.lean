import ChipEight.Instruction.Mnemonic
import ChipEight.Proofs.Instruction.Form
import ChipEight.Proofs.Text.Separators

/-!
# Reading mnemonics

A mnemonic is read back as the instruction it was written for: its words are
those between blanks, a word tells the operand it stands for, and the operands
tell apart the operations of one name.  Words of memory have the same mnemonic
when they differ in the digit that a shift ignores, and not otherwise.
-/

namespace ChipEight

namespace Operand

/-- The operands with a name of their own. -/
def names : List Operand :=
  [index, memory, delay, sound, key, font, decimal]

/-- Reads a numeral: two digits stand for a byte, others for an address. -/
def readNumber? (text : List Char) : Option Operand :=
  (Numeral.read? 16 text).map fun value =>
    if text.length = 2 then byte (UInt8.ofNat value)
    else address (UInt16.ofNat value)

def readDigit? (text : List Char) : Option Operand :=
  (Numeral.read? 16 text).map fun value => digit (UInt8.ofNat value)

def read? (text : List Char) : Option Operand :=
  if text.head? = some 'V' then
    (Numeral.read? 16 text.tail).map fun name => register (UInt8.ofNat name)
  else
    match names.find? fun name => name.characters == text with
    | some name => some name
    | none => readNumber? text

/-- Reads the operands of a line.  The digits eleven and fifteen are written
like names, but a third operand is always a digit and no other one is. -/
def readAll? : List (List Char) → Option (List Operand)
  | [] => some []
  | [text] => do return [← read? text]
  | [text, next] => do return [← read? text, ← read? next]
  | [text, next, last] => do
    return [← read? text, ← read? next, ← readDigit? last]
  | _ => none

def isDigit : Operand → Bool
  | digit _ => true
  | _ => false

theorem readDigit?_characters (value : UInt8) :
    readDigit? (digit value).characters = some (digit value) := by
  simp only [readDigit?, characters, Numeral.read?_hexadecimal, Option.map_some,
    UInt8.ofNat_toNat]

/-- No name is mistaken for a numeral of two digits or more. -/
theorem find?_names_hexadecimal {width : Nat} (wide : 2 ≤ width) (value : Nat) :
    (names.find? fun name =>
      name.characters == Numeral.hexadecimal width value) = none := by
  have short : ∀ name ∈ names, name.characters.length < 2 ∨
      name.characters.all (Numeral.symbols.contains ·) = false := by
    decide
  rw [List.find?_eq_none]
  intro name listed same
  rw [beq_iff_eq] at same
  have least := Numeral.le_length_hexadecimal width value
  have numeric : name.characters.all (Numeral.symbols.contains ·) = true := by
    rw [same, List.all_eq_true]
    intro character member
    exact List.contains_iff_mem.mpr
      (Numeral.mem_symbols_of_mem_hexadecimal member)
  rcases short name listed with short | foreign
  · rw [same] at short
    omega
  · cases numeric.symm.trans foreign

theorem read?_hexadecimal {width : Nat} (wide : 2 ≤ width) (value : Nat) :
    read? (Numeral.hexadecimal width value) =
      readNumber? (Numeral.hexadecimal width value) := by
  have unlettered : (Numeral.hexadecimal width value).head? ≠ some 'V' := by
    intro lettered
    exact Numeral.not_mem_hexadecimal (by decide) _ _
      (List.mem_of_mem_head? lettered)
  rw [read?, if_neg unlettered, find?_names_hexadecimal wide]

theorem read?_characters {operand : Operand} (kind : operand.isDigit = false) :
    read? operand.characters = some operand := by
  cases operand with
  | register name =>
      simp only [read?, characters, List.head?_cons, List.tail_cons, if_pos,
        Numeral.read?_hexadecimal, Option.map_some, UInt8.ofNat_toNat]
  | byte value =>
      have length : (Numeral.hexadecimal 2 value.toNat).length = 2 :=
        Numeral.length_hexadecimal (by decide) value.toNat_lt
      rw [characters, read?_hexadecimal (by decide), readNumber?,
        Numeral.read?_hexadecimal, Option.map_some, if_pos length,
        UInt8.ofNat_toNat]
  | digit value => cases kind
  | address value =>
      have least := Numeral.le_length_hexadecimal 3 value.toNat
      have long : (Numeral.hexadecimal 3 value.toNat).length ≠ 2 := by omega
      rw [characters, read?_hexadecimal (by decide), readNumber?,
        Numeral.read?_hexadecimal, Option.map_some, if_neg long,
        UInt16.ofNat_toNat]
  | index | memory | delay | sound | key | font | decimal => rfl

theorem not_mem_characters {operand : Operand} {separator : Char}
    (separates : separator = ',' ∨ separator = ' ') :
    separator ∉ operand.characters := by
  have unused : separator ∉ Numeral.symbols := by
    rcases separates with rfl | rfl <;> decide
  have unlettered : separator ≠ 'V' := by
    rcases separates with rfl | rfl <;> decide
  have unnamed : ∀ name ∈ names, separator ∉ name.characters := by
    rcases separates with rfl | rfl <;> decide
  have plain := Numeral.not_mem_hexadecimal unused
  cases operand with
  | register name =>
      rw [characters, List.mem_cons, not_or]
      exact ⟨unlettered, plain 1 _⟩
  | byte value | digit value | address value => exact plain _ _
  | index | memory | delay | sound | key | font | decimal =>
      exact unnamed _ (by decide)

end Operand

namespace Assembly

def words (line : Assembly) : List (List Char) :=
  line.operation.toList :: line.operands.map Operand.characters

theorem filter_separated (operands : List Operand) :
    (separated operands).filter (· != ',') =
      [' '].intercalate (operands.map Operand.characters) := by
  have plain : ∀ operand : Operand,
      operand.characters.filter (· != ',') = operand.characters :=
    fun _ => filter_bne_eq_self (Operand.not_mem_characters (.inl rfl))
  induction operands with
  | nil => rfl
  | cons operand rest ih =>
      cases rest with
      | nil => simpa [separated] using plain operand
      | cons next rest =>
          simp only [separated, List.filter_append, plain, ih, List.map_cons,
            List.intercalate_cons_cons]
          rfl

/-- Without its commas a line is its words with blanks between them. -/
theorem filter_characters {line : Assembly}
    (plain : ',' ∉ line.operation.toList) :
    line.characters.filter (· != ',') = [' '].intercalate line.words := by
  have kept := filter_bne_eq_self plain
  rcases line with ⟨operation, operands⟩
  cases operands with
  | nil => simpa [characters, words] using kept
  | cons operand rest =>
      simp only [characters, words, List.filter_append, kept, filter_separated,
        List.map_cons, List.intercalate_cons_cons]
      rfl

end Assembly

namespace Instruction

/-- The instruction that an operation stands for with the given operands. -/
def ofParts? : String → List Operand → Option Instruction
  | "CLS", [] => some clearFrame
  | "RET", [] => some leave
  | "JP", [.address target] => some (jump target)
  | "CALL", [.address target] => some (call target)
  | "SE", [.register x, .byte constant] => some (skipIfByte x constant)
  | "SNE", [.register x, .byte constant] => some (skipUnlessByte x constant)
  | "SE", [.register x, .register y] => some (skipIfEqual x y)
  | "LD", [.register x, .byte constant] => some (setByte x constant)
  | "ADD", [.register x, .byte constant] => some (addByte x constant)
  | "LD", [.register x, .register y] => some (copy x y)
  | "OR", [.register x, .register y] => some (union x y)
  | "AND", [.register x, .register y] => some (intersect x y)
  | "XOR", [.register x, .register y] => some (differ x y)
  | "ADD", [.register x, .register y] => some (add x y)
  | "SUB", [.register x, .register y] => some (subtract x y)
  | "SHR", [.register x] => some (halve x)
  | "SUBN", [.register x, .register y] => some (subtractFrom x y)
  | "SHL", [.register x] => some (double x)
  | "SNE", [.register x, .register y] => some (skipUnlessEqual x y)
  | "LD", [.index, .address address] => some (setIndex address)
  | "JP", [.register 0, .address base] => some (jumpBeyond base)
  | "RND", [.register x, .byte mask] => some (random x mask)
  | "DRW", [.register x, .register y, .digit height] => some (draw x y height)
  | "SKP", [.register x] => some (skipIfDown x)
  | "SKNP", [.register x] => some (skipUnlessDown x)
  | "LD", [.register x, .delay] => some (readDelay x)
  | "LD", [.register x, .key] => some (awaitKey x)
  | "LD", [.delay, .register x] => some (setDelay x)
  | "LD", [.sound, .register x] => some (setSound x)
  | "ADD", [.index, .register x] => some (advanceIndex x)
  | "LD", [.font, .register x] => some (findGlyph x)
  | "LD", [.decimal, .register x] => some (storeDecimal x)
  | "LD", [.memory, .register x] => some (storeRegisters x)
  | "LD", [.register x, .memory] => some (loadRegisters x)
  | _, _ => none

/-- Reads a line of assembly text. -/
def readLine? (line : List Char) : Option Instruction :=
  match (line.filter (· != ',')).splitOn ' ' with
  | [] => none
  | operation :: operands =>
    (Operand.readAll? operands).bind (ofParts? (String.ofList operation))

theorem ofParts?_assembly (instruction : Instruction) :
    ofParts? instruction.assembly.operation instruction.assembly.operands =
      some instruction := by
  cases instruction <;> rfl

theorem readAll?_operands (instruction : Instruction) :
    Operand.readAll?
        (instruction.assembly.operands.map Operand.characters) =
      some instruction.assembly.operands := by
  have one : ∀ {operand : Operand}, operand.isDigit = false →
      Operand.readAll? [operand.characters] = some [operand] := by
    intro operand kind
    rw [Operand.readAll?, Operand.read?_characters kind]
    rfl
  have two : ∀ {first second : Operand},
      first.isDigit = false → second.isDigit = false →
      Operand.readAll? [first.characters, second.characters] =
        some [first, second] := by
    intro first second kind kindSecond
    rw [Operand.readAll?, Operand.read?_characters kind,
      Operand.read?_characters kindSecond]
    rfl
  cases instruction with
  | clearFrame | leave => rfl
  | jump _ | call _ | halve _ | double _ | skipIfDown _ | skipUnlessDown _ =>
      exact one rfl
  | draw x y height =>
      simp only [assembly, List.map_cons, List.map_nil, Operand.readAll?,
        Operand.readDigit?_characters]
      rw [Operand.read?_characters rfl, Operand.read?_characters rfl]
      rfl
  | _ => exact two rfl rfl

theorem not_mem_operation (instruction : Instruction) :
    ',' ∉ instruction.assembly.operation.toList ∧
      ' ' ∉ instruction.assembly.operation.toList := by
  cases instruction <;> dsimp only [assembly] <;> decide

/-- Every mnemonic is read back as the instruction it was written for. -/
theorem readLine?_mnemonicCharacters (instruction : Instruction) :
    readLine? instruction.mnemonicCharacters = some instruction := by
  obtain ⟨noComma, noBlank⟩ := not_mem_operation instruction
  have free : ∀ word ∈ instruction.assembly.words, ' ' ∉ word := by
    intro word listed
    rcases List.mem_cons.mp listed with rfl | listed
    · exact noBlank
    · obtain ⟨operand, _, rfl⟩ := List.mem_map.mp listed
      exact Operand.not_mem_characters (.inr rfl)
  rw [readLine?, mnemonicCharacters, Assembly.filter_characters noComma,
    List.splitOn_intercalate ' ' free (List.cons_ne_nil _ _)]
  simp only [Assembly.words, readAll?_operands, Option.bind_some,
    String.ofList_toList]
  exact ofParts?_assembly instruction

theorem mnemonic_injective : Function.Injective mnemonic := by
  intro instruction other same
  have texts := String.ofList_injective same
  have read := readLine?_mnemonicCharacters instruction
  rw [texts, readLine?_mnemonicCharacters] at read
  exact (Option.some.inj read).symm

/-- Words with the form of one shift decode alike if they name one register. -/
theorem decode_eq_of_matches_shift {last : UInt8}
    (shift : last = 0x6 ∨ last = 0xE) {first second : Word}
    (fixed : (Form.operation 0x8 last).Matches first)
    (alike : (Form.operation 0x8 last).Matches second)
    (target : first.x = second.x) : decode first = decode second := by
  have shifts : ∀ {word : Word}, (Form.operation 0x8 last).Matches word →
      decode word = decodeArithmetic word.x word.y last.toNat := by
    intro word fixed
    rw [decode, fixed.first, fixed.fourth _ rfl]
    rfl
  rw [shifts fixed, shifts alike, target]
  rcases shift with rfl | rfl <;> rfl

/-- Two words of one instruction are the same, or they are words of a shift. -/
theorem words_of_decode {first second : Word} {instruction : Instruction}
    (decoded : decode first = some instruction)
    (decodedSecond : decode second = some instruction) :
    first = second ∨ ∃ last, (last = 0x6 ∨ last = 0xE) ∧
      (Form.operation 0x8 last).Matches first ∧
      (Form.operation 0x8 last).Matches second ∧ first.x = second.x := by
  have fixed := matches_of_decode decoded
  have alike := matches_of_decode decodedSecond
  obtain ⟨encodable, spare, fits, rfl⟩ := decode_eq_some_iff.mp decoded
  obtain ⟨_, other, fitsOther, rfl⟩ := decode_eq_some_iff.mp decodedSecond
  have named := named_lt_of_encodable encodable
  cases instruction with
  | halve x | double x =>
      have fitsX := named x (.head _)
      refine .inr ⟨_, ?shift, fixed, alike, ?target⟩
      case shift => decide
      case target =>
        rw [encodeWith, encodeWith,
          (parts_wordOfDigits ?_ fitsX fits ?_).2.1,
          (parts_wordOfDigits ?_ fitsX fitsOther ?_).2.1]
        all_goals decide
  | _ => exact .inl rfl

/-- Mnemonics identify instructions, whatever their operands.  Words that decode
have the same mnemonic exactly if they decode alike, and they decode alike
exactly if they are the same or are one shift of one register. -/
theorem mnemonics_identify :
    (∀ first second : Instruction,
      first.mnemonic = second.mnemonic → first = second) ∧
    ∀ (first second : Word) (instruction found : Instruction),
      decode first = some instruction → decode second = some found →
        (instruction.mnemonic = found.mnemonic ↔
          decode first = decode second) ∧
        (decode first = decode second ↔
          first = second ∨ ∃ last, (last = 0x6 ∨ last = 0xE) ∧
            (Form.operation 0x8 last).Matches first ∧
            (Form.operation 0x8 last).Matches second ∧
            first.x = second.x) := by
  refine ⟨fun _ _ same => mnemonic_injective same, ?_⟩
  intro first second instruction found decoded decodedSecond
  refine ⟨?mnemonics, ?words⟩
  case mnemonics =>
    rw [decoded, decodedSecond, mnemonic_injective.eq_iff, Option.some.injEq]
  case words =>
    constructor
    · intro alike
      exact words_of_decode decoded (alike.symm.trans decoded)
    · rintro (rfl | ⟨last, shift, fixed, matched, target⟩)
      · rfl
      · exact decode_eq_of_matches_shift shift fixed matched target

/-- Two words that differ in the digit that a shift ignores. -/
theorem mnemonics_identify_shift :
    decode 0x8126 = some (halve 1) ∧ decode 0x8136 = some (halve 1) ∧
      decode 0x8126 = decode 0x8136 := by
  have decoded : decode 0x8126 = some (halve 1) := by decide
  have decodedOther : decode 0x8136 = some (halve 1) := by decide
  have fixed : (Form.operation 0x8 0x6).Matches 0x8126 :=
    Form.matches_operation_iff.mpr (by decide)
  have alike : (Form.operation 0x8 0x6).Matches 0x8136 :=
    Form.matches_operation_iff.mpr (by decide)
  have identified := mnemonics_identify.2 0x8126 0x8136 (halve 1) (halve 1)
    decoded decodedOther
  exact ⟨decoded, decodedOther,
    identified.2.mpr (.inr ⟨0x6, .inl rfl, fixed, alike, by decide⟩)⟩

end Instruction

end ChipEight
