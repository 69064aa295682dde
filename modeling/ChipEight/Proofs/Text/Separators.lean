import ChipEight.Text.Numeral

/-!
# Texts with separators

A line of text is read from its left end: a part is over at the first separator,
if no part contains it.  Numerals consist of digit symbols alone, so they end at
any other character, and what is written as a numeral is read off again together
with the text behind it.
-/

namespace ChipEight

section Lists

variable {Item : Type} {separator : Item} {first other : List Item}

/-- Parts without a separator are told apart from what follows it. -/
theorem append_cons_eq_iff (free : separator ∉ first)
    (freeOther : separator ∉ other) {rest tail : List Item} :
    first ++ separator :: rest = other ++ separator :: tail ↔
      first = other ∧ rest = tail := by
  constructor
  case mpr =>
    rintro ⟨rfl, rfl⟩
    rfl
  case mp =>
    intro same
    induction first generalizing other with
    | nil =>
        cases other with
        | nil => exact ⟨rfl, (List.cons.inj same).2⟩
        | cons item others =>
            cases (List.cons.inj same).1
            exact absurd (List.mem_cons_self ..) freeOther
    | cons item items ih =>
        rw [List.mem_cons, not_or] at free
        cases other with
        | nil => exact absurd (List.cons.inj same).1.symm free.1
        | cons found others =>
            rw [List.mem_cons, not_or] at freeOther
            obtain ⟨rfl, later⟩ := List.cons.inj same
            obtain ⟨rfl, tails⟩ := ih free.2 freeOther.2 later
            exact ⟨rfl, tails⟩

theorem filter_bne_eq_self [BEq Item] [LawfulBEq Item]
    (free : separator ∉ first) : first.filter (· != separator) = first := by
  rw [List.filter_eq_self]
  intro item member
  rw [bne_iff_ne]
  rintro rfl
  exact free member

theorem eq_of_intercalate_eq [DecidableEq Item]
    {parts others : List (List Item)}
    (free : ∀ part ∈ parts, separator ∉ part)
    (freeOthers : ∀ part ∈ others, separator ∉ part)
    (filled : parts ≠ []) (filledOthers : others ≠ [])
    (same : [separator].intercalate parts = [separator].intercalate others) :
    parts = others := by
  rw [← List.splitOn_intercalate separator free filled, same,
    List.splitOn_intercalate separator freeOthers filledOthers]

end Lists

namespace Numeral

theorem symbol_mem_symbols (digit : Nat) : symbol digit ∈ symbols := by
  rw [symbol, List.getD_eq_getElem?_getD]
  cases found : symbols[digit]? with
  | none => decide
  | some character => exact List.mem_of_getElem? found

theorem mem_symbols_of_mem_digits {radix value : Nat} {character : Char}
    (member : character ∈ digits radix value) : character ∈ symbols := by
  induction value using Nat.strongRecOn with
  | ind value ih =>
    rw [digits] at member
    split at member
    · rw [List.mem_singleton.mp member]
      exact symbol_mem_symbols value
    · rcases List.mem_append.mp member with earlier | last
      · exact ih _ (Nat.div_lt_self (by omega) (by omega)) earlier
      · rw [List.mem_singleton.mp last]
        exact symbol_mem_symbols _

theorem mem_symbols_of_mem_hexadecimal {width value : Nat} {character : Char}
    (member : character ∈ hexadecimal width value) : character ∈ symbols := by
  rcases List.mem_append.mp member with filling | digit
  · rw [List.eq_of_mem_replicate filling]
    decide
  · exact mem_symbols_of_mem_digits digit

theorem not_mem_hexadecimal {character : Char} (foreign : character ∉ symbols)
    (width value : Nat) : character ∉ hexadecimal width value :=
  fun member => foreign (mem_symbols_of_mem_hexadecimal member)

theorem le_length_hexadecimal (width value : Nat) :
    width ≤ (hexadecimal width value).length := by
  rw [hexadecimal, padded, List.length_append, List.length_replicate]
  omega

theorem length_digits_le {radix : Nat} (base : 2 ≤ radix) {value places : Nat}
    (positive : 0 < places) (below : value < Nat.pow radix places) :
    (digits radix value).length ≤ places := by
  induction places generalizing value with
  | zero => cases positive
  | succ places ih =>
      by_cases single : value < radix
      · rw [digits_of_lt single, List.length_singleton]
        omega
      · have quotient : value / radix < Nat.pow radix places := by
          rw [Nat.div_lt_iff_lt_mul (by omega)]
          exact below
        have more : 0 < places := by
          rcases Nat.eq_zero_or_pos places with rfl | more
          · have := Nat.div_pos (Nat.le_of_not_lt single) (by omega)
            change value / radix < 1 at quotient
            omega
          · exact more
        have shorter := ih more quotient
        rw [digits_of_le base (by omega), List.length_append,
          List.length_singleton]
        omega

/-- A number that fits into the width is written with just that many digits. -/
theorem length_hexadecimal {width value : Nat} (positive : 0 < width)
    (below : value < Nat.pow 16 width) :
    (hexadecimal width value).length = width := by
  have most := length_digits_le (by decide : 2 ≤ 16) positive below
  rw [hexadecimal, padded, List.length_append, List.length_replicate]
  omega

theorem eq_of_hexadecimal_eq {width other first second : Nat}
    (same : hexadecimal width first = hexadecimal other second) :
    first = second := by
  have read := read?_hexadecimal width first
  rw [same, read?_hexadecimal] at read
  exact (Option.some.inj read).symm

theorem eq_of_decimal_eq {first second : Nat}
    (same : decimal first = decimal second) : first = second := by
  have read := read?_digits (by decide : 2 ≤ 10) (by decide) first
  rw [show digits 10 first = digits 10 second from same,
    read?_digits (by decide) (by decide)] at read
  exact (Option.some.inj read).symm

variable {separator : Char} (foreign : separator ∉ symbols)
variable {width first second : Nat} {rest tail : List Char}

include foreign

/-- A numeral ends at the first character that is no digit symbol. -/
theorem hexadecimal_append_eq_iff :
    hexadecimal width first ++ separator :: rest =
        hexadecimal width second ++ separator :: tail ↔
      first = second ∧ rest = tail := by
  rw [append_cons_eq_iff (not_mem_hexadecimal foreign width first)
    (not_mem_hexadecimal foreign width second)]
  refine and_congr_left fun _ => ⟨eq_of_hexadecimal_eq, ?_⟩
  rintro rfl
  rfl

theorem decimal_append_eq_iff :
    decimal first ++ separator :: rest = decimal second ++ separator :: tail ↔
      first = second ∧ rest = tail := by
  have free : ∀ value, separator ∉ decimal value :=
    fun _ member => foreign (mem_symbols_of_mem_digits member)
  rw [append_cons_eq_iff (free first) (free second)]
  refine and_congr_left fun _ => ⟨eq_of_decimal_eq, ?_⟩
  rintro rfl
  rfl

end Numeral

end ChipEight
