/-!
# Numerals

Positional numerals as lists of characters, most significant digit first, in
any radix from two to sixteen.  Writing never shortens a number: a padded
numeral grows past its width when the number needs more digits.  Reading takes
digits only, so it accepts leading zeros and refuses the empty text.
-/

namespace ChipEight

namespace Numeral

/-- The digit symbols in the order of their values. -/
def symbols : List Char :=
  ['0', '1', '2', '3', '4', '5', '6', '7',
    '8', '9', 'A', 'B', 'C', 'D', 'E', 'F']

/-- The symbol of a digit.  A value past the last symbol is shown as zero. -/
def symbol (digit : Nat) : Char :=
  symbols.getD digit '0'

/-- The value of a character as a digit of the given radix. -/
def value? (radix : Nat) (character : Char) : Option Nat :=
  let place := symbols.idxOf character
  if place < min radix symbols.length then some place else none

/-- The numeral of a number without leading zeros; zero has one digit. -/
def digits (radix value : Nat) : List Char :=
  if radix < 2 ∨ value < radix then
    [symbol value]
  else
    digits radix (value / radix) ++ [symbol (value % radix)]
termination_by value
decreasing_by
  exact Nat.div_lt_self (by omega) (by omega)

/-- A number below the radix is written with one digit. -/
theorem digits_of_lt {radix value : Nat} (below : value < radix) :
    digits radix value = [symbol value] := by
  rw [digits, if_pos (Or.inr below)]

/-- A number from the radix on is written as its quotient followed by its last
digit. -/
theorem digits_of_le {radix value : Nat} (base : 2 ≤ radix)
    (atLeast : radix ≤ value) :
    digits radix value =
      digits radix (value / radix) ++ [symbol (value % radix)] := by
  rw [digits, if_neg (by omega)]

/-- Fills a numeral with zeros on the left up to a least width. -/
def padded (width : Nat) (numeral : List Char) : List Char :=
  List.replicate (width - numeral.length) '0' ++ numeral

/-- A number in upper-case hexadecimal with at least the given number of
digits. -/
def hexadecimal (width value : Nat) : List Char :=
  padded width (digits 16 value)

def decimal (value : Nat) : List Char :=
  digits 10 value

/-- Reads digits from the left on top of a number already read. -/
def readFrom (radix : Nat) (total : Nat) : List Char → Option Nat
  | [] => some total
  | character :: rest =>
    match value? radix character with
    | some digit => readFrom radix (radix * total + digit) rest
    | none => none

/-- Reads a whole text as a numeral. -/
def read? (radix : Nat) : List Char → Option Nat
  | [] => none
  | character :: rest => readFrom radix 0 (character :: rest)

/-- A digit is read back from its symbol. -/
theorem value?_symbol {radix digit : Nat} (most : radix ≤ 16)
    (below : digit < radix) : value? radix (symbol digit) = some digit := by
  have places : ∀ value < 16, symbols.idxOf (symbol value) = value := by
    decide
  have place := places digit (by omega)
  have size : symbols.length = 16 := rfl
  simp only [value?, place, size]
  rw [if_pos (by omega)]

/-- A text in two parts is read part by part. -/
theorem readFrom_append (radix : Nat) (first second : List Char) :
    ∀ total, readFrom radix total (first ++ second) =
      (readFrom radix total first).bind fun value =>
        readFrom radix value second := by
  induction first with
  | nil =>
    intro total
    rfl
  | cons character rest ih =>
    intro total
    simp only [List.cons_append, readFrom]
    cases value? radix character with
    | none => rfl
    | some digit => exact ih _

theorem digits_ne_nil (radix value : Nat) : digits radix value ≠ [] := by
  rw [digits]
  split
  · exact List.cons_ne_nil _ _
  · exact List.append_ne_nil_of_right_ne_nil _ (List.cons_ne_nil _ _)

/-- Reading a numeral shifts what was read before and adds the number. -/
theorem readFrom_digits {radix : Nat} (base : 2 ≤ radix)
    (most : radix ≤ 16) (value : Nat) :
    ∀ total, readFrom radix total (digits radix value) =
      some (Nat.pow radix (digits radix value).length * total + value) := by
  induction value using Nat.strongRecOn with
  | ind value ih =>
    intro total
    by_cases below : value < radix
    · rw [digits_of_lt below]
      simp [readFrom, value?_symbol most below]
    · have smaller : value / radix < value :=
        Nat.div_lt_self (by omega) (by omega)
      have last : value % radix < radix := Nat.mod_lt _ (by omega)
      have parts := Nat.div_add_mod value radix
      rw [digits_of_le base (by omega), readFrom_append, ih _ smaller]
      simp only [Option.bind_some, readFrom, value?_symbol most last,
        List.length_append, List.length_cons, List.length_nil,
        Nat.zero_add]
      congr 1
      have power : ∀ count, Nat.pow radix (count + 1) =
          radix * Nat.pow radix count := fun count => Nat.mul_comm _ _
      rw [Nat.mul_add, Nat.add_assoc, parts, power, Nat.mul_assoc]

/-- A numeral is read back as the number it was written for. -/
theorem read?_digits {radix : Nat} (base : 2 ≤ radix) (most : radix ≤ 16)
    (value : Nat) : read? radix (digits radix value) = some value := by
  have result := readFrom_digits base most value 0
  cases numeral : digits radix value with
  | nil => exact absurd numeral (digits_ne_nil radix value)
  | cons character rest =>
    rw [numeral] at result
    simpa [read?] using result

/-- Leading zeros do not change the number that is read. -/
theorem readFrom_zero_replicate {radix : Nat} (base : 2 ≤ radix)
    (count : Nat) (numeral : List Char) :
    readFrom radix 0 (List.replicate count '0' ++ numeral) =
      readFrom radix 0 numeral := by
  have zero : value? radix '0' = some 0 := by
    have place : symbols.idxOf '0' = 0 := by decide
    have size : symbols.length = 16 := rfl
    simp only [value?, place, size]
    rw [if_pos (by omega)]
  induction count with
  | zero => rfl
  | succ count ih =>
    simp only [List.replicate_succ, List.cons_append, readFrom, zero,
      Nat.mul_zero, Nat.add_zero]
    exact ih

/-- A number is read back from its hexadecimal numeral of any width. -/
theorem read?_hexadecimal (width value : Nat) :
    read? 16 (hexadecimal width value) = some value := by
  have whole : ∀ text, text ≠ [] → read? 16 text = readFrom 16 0 text := by
    intro text filled
    cases text with
    | nil => exact absurd rfl filled
    | cons character rest => rfl
  have filled : hexadecimal width value ≠ [] :=
    List.append_ne_nil_of_right_ne_nil _ (digits_ne_nil 16 value)
  rw [whole _ filled, hexadecimal, padded,
    readFrom_zero_replicate (by decide), ← whole _ (digits_ne_nil 16 value)]
  exact read?_digits (by decide) (by decide) value

end Numeral

end ChipEight
