import ChipEight.Proofs.Machine.LogLines

/-!
# Dumps in short sinks

A sink counts what it takes in bytes.  A register dump has no character that
takes more than one, so a dump that is cut off is cut off between characters,
and a sink with too little room ends up with the beginning of the line and
nothing else.

How a line is cut into pieces while it is written makes no difference to the
sink: the room runs out at the same place.
-/

namespace ChipEight

/-- A text as bytes. -/
def octets (text : List Char) : List UInt8 :=
  text.flatMap String.utf8EncodeChar

/-- Whether a character takes one byte. -/
def isNarrow (character : Char) : Bool :=
  character.utf8Size = 1

theorem octets_eq_map {text : List Char} (narrow : text.all isNarrow = true) :
    octets text = text.map fun character => character.val.toUInt8 := by
  induction text with
  | nil => rfl
  | cons character rest ih =>
      simp only [List.all_cons, Bool.and_eq_true] at narrow
      obtain ⟨first, later⟩ := narrow
      have single : character.utf8Size = 1 := of_decide_eq_true first
      rw [octets, List.flatMap_cons, String.utf8EncodeChar_eq_singleton single,
        List.map_cons]
      exact congrArg _ (ih later)

theorem length_octets {text : List Char} (narrow : text.all isNarrow = true) :
    (octets text).length = text.length := by
  rw [octets_eq_map narrow, List.length_map]

theorem octets_take {text : List Char} (narrow : text.all isNarrow = true)
    (count : Nat) : octets (text.take count) = (octets text).take count := by
  have cut : (text.take count).all isNarrow = true := by
    rw [List.all_eq_true] at narrow ⊢
    exact fun character member => narrow character (List.mem_of_mem_take member)
  rw [octets_eq_map cut, octets_eq_map narrow, List.map_take]

namespace Numeral

theorem all_isNarrow_of_subset {text : List Char} (digits : text ⊆ symbols) :
    text.all isNarrow = true := by
  have narrow : symbols.all isNarrow = true := by decide
  rw [List.all_eq_true] at narrow ⊢
  exact fun character member => narrow character (digits member)

theorem all_isNarrow_hexadecimal (width value : Nat) :
    (hexadecimal width value).all isNarrow = true :=
  all_isNarrow_of_subset fun _ => mem_symbols_of_mem_hexadecimal

theorem all_isNarrow_decimal (value : Nat) :
    (decimal value).all isNarrow = true :=
  all_isNarrow_of_subset fun _ => mem_symbols_of_mem_digits

end Numeral

namespace RegisterDump

/-- The values of registers as a dump lists them. -/
def listed (registers : RegisterFile) : List Char :=
  [' '].intercalate
    (registers.values.toList.map fun value =>
      Numeral.hexadecimal 2 value.toNat)

/-- The line of a dump, written down at once. -/
def line (dump : RegisterDump) : List Char :=
  ['p', 'c', ':'] ++ Numeral.hexadecimal 4 dump.counter.toNat ++
    [' ', 'i', ':'] ++ Numeral.hexadecimal 4 dump.index.toNat ++
    [' ', 's', 'p', ':'] ++ Numeral.decimal dump.depth.toNat ++
    [' ', 'd', 't', ':'] ++ Numeral.hexadecimal 2 dump.delay.toNat ++
    [' ', 's', 't', ':'] ++ Numeral.hexadecimal 2 dump.sound.toNat ++
    [' ', 'v', ':', '['] ++ listed dump.registers ++ [']']

theorem flatten_pieces (dump : RegisterDump) :
    dump.pieces.flatten = dump.line := by
  rw [← characters, characters_eq, flatten_valuePieces]
  simp [line, listed]

theorem all_isNarrow_intercalate {parts : List (List Char)}
    (narrow : ∀ part ∈ parts, part.all isNarrow = true) :
    ([' '].intercalate parts).all isNarrow = true := by
  induction parts with
  | nil => rfl
  | cons part rest ih =>
      have first := narrow part (List.mem_cons_self ..)
      have later := ih fun other member =>
        narrow other (List.mem_cons_of_mem _ member)
      cases rest with
      | nil => simpa using first
      | cons next rest =>
          rw [List.intercalate_cons_cons, List.all_append, List.all_append,
            first, later]
          decide

theorem all_isNarrow_line (dump : RegisterDump) :
    dump.line.all isNarrow = true := by
  have values : (listed dump.registers).all isNarrow = true := by
    apply all_isNarrow_intercalate
    intro part member
    obtain ⟨value, _, rfl⟩ := List.mem_map.mp member
    exact Numeral.all_isNarrow_hexadecimal 2 _
  simp only [line, List.all_append, Numeral.all_isNarrow_hexadecimal,
    Numeral.all_isNarrow_decimal, values]
  decide

/-- The values of the registers have two digits each, and all but the last come
with the separator after them. -/
theorem length_listed (registers : RegisterFile) :
    (listed registers).length = 47 := by
  have widths : ∀ values : List UInt8, values ≠ [] →
      ([' '].intercalate (values.map fun value =>
        Numeral.hexadecimal 2 value.toNat)).length + 1 =
          3 * values.length := by
    intro values filled
    induction values with
    | nil => exact absurd rfl filled
    | cons value rest ih =>
        have width : (Numeral.hexadecimal 2 value.toNat).length = 2 :=
          Numeral.length_hexadecimal (by decide) value.toNat_lt
        cases rest with
        | nil => simp [width]
        | cons next rest =>
            have later := ih (List.cons_ne_nil _ _)
            simp only [List.map_cons, List.intercalate_cons_cons,
              List.length_append, List.length_cons, List.length_nil,
              width] at later ⊢
            omega
  have size : registers.values.toList.length = 16 := Vector.length_toList ..
  have filled : registers.values.toList ≠ [] := by
    intro empty
    rw [empty] at size
    cases size
  have total := widths _ filled
  rw [size] at total
  rw [listed]
  omega

/-- The depth is the one value whose width is not fixed. -/
theorem length_line (dump : RegisterDump) :
    dump.line.length = 82 + (Numeral.decimal dump.depth.toNat).length := by
  have wide : ∀ word : Word, (Numeral.hexadecimal 4 word.toNat).length = 4 :=
    fun word => Numeral.length_hexadecimal (by decide) word.toNat_lt
  have slim : ∀ byte : UInt8, (Numeral.hexadecimal 2 byte.toNat).length = 2 :=
    fun byte => Numeral.length_hexadecimal (by decide) byte.toNat_lt
  simp only [line, List.length_append, List.length_cons, List.length_nil,
    wide, slim, length_listed]
  omega

end RegisterDump

namespace Sink

theorem writeAll_empty (room : Nat) (pieces : List (List Char)) :
    ((Sink.empty room).writeAll pieces).1.held = pieces.flatten.take room ∧
      ((Sink.empty room).writeAll pieces).2 =
        decide (pieces.flatten.length ≤ room) :=
  writeAll_eq pieces (Sink.empty room)

end Sink

namespace State

/-- A dump that is written to a sink of some bytes leaves as much of its line
there as fits, and the writing fails exactly if some of it does not fit.  The
line is as long as its depth makes it, and whatever pieces it is written in,
the outcome is the same. -/
theorem dump_fills_sink (state : State) (room : Nat) :
    let line := state.dump.line
    let bytes := octets line
    let written := state.dump.writeTo (Sink.empty room)
    state.dump.text = String.ofList line ∧
      bytes.length =
        82 + (Numeral.decimal state.stack.depth.toNat).length ∧
      octets written.1.held = bytes.take (min room bytes.length) ∧
      (written.2 = false ↔ room < bytes.length) ∧
      ∀ pieces : List (List Char), pieces.flatten = line →
        ((Sink.empty room).writeAll pieces).1.held = written.1.held ∧
          ((Sink.empty room).writeAll pieces).2 = written.2 := by
  intro line bytes written
  have narrow := state.dump.all_isNarrow_line
  have whole := state.dump.flatten_pieces
  have size : bytes.length = line.length := length_octets narrow
  have kept : written.1.held = line.take room := by
    rw [show written.1.held = _ from (Sink.writeAll_empty room _).1, whole]
  have complete : written.2 = decide (line.length ≤ room) := by
    rw [show written.2 = _ from (Sink.writeAll_empty room _).2, whole]
  refine ⟨?text, ?length, ?held, ?fails, ?pieces⟩
  case text =>
    rw [RegisterDump.text, RegisterDump.characters, whole]
  case length =>
    rw [size]
    exact state.dump.length_line
  case held =>
    rw [kept, octets_take narrow, ← List.take_eq_take_min]
  case fails =>
    rw [complete, size, decide_eq_false_iff_not, Nat.not_le]
  case pieces =>
    intro pieces same
    rw [kept, complete, ← same]
    exact Sink.writeAll_empty room pieces

/-- The dump of the first state is cut after its depth, written a character at a
time. -/
theorem dump_fills_sink_by_characters :
    let line := State.initial.dump.line
    let pieces := line.map fun character => [character]
    let written := (Sink.empty 20).writeAll pieces
    pieces.flatten = line ∧ written.2 = false ∧
      octets written.1.held = (octets line).take 20 := by
  intro line pieces written
  obtain ⟨_, length, held, fails, cut⟩ := State.initial.dump_fills_sink 20
  have same : pieces.flatten = line := by
    simp [pieces, ← List.flatMap_def]
  obtain ⟨sameHeld, sameAnswer⟩ := cut pieces same
  have short : 20 < (octets State.initial.dump.line).length := by
    rw [length]
    omega
  refine ⟨same, sameAnswer.trans (fails.mpr short), ?_⟩
  rw [sameHeld, held, Nat.min_eq_left (Nat.le_of_lt short)]

end State

end ChipEight
