import Mathlib.Algebra.BigOperators.Group.List.Basic
import Mathlib.Algebra.Ring.Nat
import Mathlib.Data.List.Induction
import ChipEight.CommandLine.Reader
import ChipEight.Proofs.CommandLine.Limits
import ChipEight.Proofs.Text.Separators

/-!
# Documented readers

What may be relied on of a reader is said by `Reader.Documented`, one rule at a
time: what its values and programs are, what it finds in a command line of a
program alone, what one more option at either end of a command line adds, and
where the things it finds come from.

From these rules follows what a documented reader finds in a command line
however it is arranged, since any such line grows out of its program by one
option at a time.
-/

namespace ChipEight

namespace CommandLine

/-! ### Options as they are written -/

/-- An option of a command line. -/
inductive Piece
  /-- A setting with the text of its value, which is either joined to it by an
  equals sign or the next argument. -/
  | setting (setting : Setting) (text : List Char) (joined : Bool)
  /-- A group of letters, each of which asks for more detail. -/
  | details (more : Nat)

namespace Piece

def words : Piece → List (List Char)
  | setting kind text true => ['-' :: '-' :: (kind.name ++ '=' :: text)]
  | setting kind text false => ['-' :: '-' :: kind.name, text]
  | details more => ['-' :: List.replicate (more + 1) 'v']

/-- The text that a piece gives to a setting. -/
def text? (kind : Setting) : Piece → Option (List Char)
  | setting other text _ => if other = kind then some text else none
  | details _ => none

def detail : Piece → Nat
  | setting _ _ _ => 0
  | details more => more + 1

end Piece

/-- The argument that ends the options. -/
abbrev terminator : List Char := ['-', '-']

/-- An argument that is no option: it does not begin with a dash, or is a lone
dash. -/
def IsPlain (argument : List Char) : Prop :=
  argument.head? = some '-' → argument = ['-']

/-! ### What is documented -/

namespace Reader

/-- What a piece adds to what was found: the value of a setting that was not
made before, or so much more detail, as far as a byte can count it.  A text of
its own may not begin with a dash. -/
inductive Adds (reader : Reader) (found : Findings) : Piece → Findings → Prop
  | setting {kind : Setting} {text : List Char} {joined : Bool} {value : Nat}
      (unset : found.choices.get kind = none)
      (separable : joined = false → text.head? ≠ some '-')
      (valued : reader.value? kind text = some value) :
      reader.Adds found (.setting kind text joined)
        { found with choices := found.choices.set value kind }
  | details {more : Nat} (room : found.details.toNat + (more + 1) ≤ 255) :
      reader.Adds found (.details more)
        { found with details := found.details + UInt8.ofNat (more + 1) }

/-- The documented behaviour of a reader. -/
structure Documented (reader : Reader) : Prop where
  /-- A setting only gets values that it takes. -/
  value_takes : ∀ {setting : Setting} {text : List Char} {value : Nat},
    reader.value? setting text = some value → setting.Takes value
  /-- A value that a setting takes can be written in decimal. -/
  value_decimal : ∀ {setting : Setting} {value : Nat},
    setting.Takes value →
      reader.value? setting (Numeral.decimal value) = some value
  /-- The name of a program is not empty. -/
  program_empty : reader.program? [] = none
  /-- A text that is not empty names a program as it stands. -/
  program_filled : ∀ {text : List Char},
    text ≠ [] → reader.program? text = some text
  /-- An argument that is no option is the program. -/
  program_alone : ∀ {text program : List Char},
    IsPlain text → reader.program? text = some program →
      reader.read [text] =
        .ok { program := program, choices := Choices.none, details := 0 }
  /-- An option may come before everything else. -/
  option_first : ∀ {piece : Piece} {arguments : List (List Char)}
      {found after : Findings},
    reader.read arguments = .ok found → reader.Adds found piece after →
      reader.read (piece.words ++ arguments) = .ok after
  /-- An option may come after everything else, unless the options have
  ended. -/
  option_last : ∀ {piece : Piece} {arguments : List (List Char)}
      {found after : Findings},
    terminator ∉ arguments →
      reader.read arguments = .ok found → reader.Adds found piece after →
        reader.read (arguments ++ piece.words) = .ok after
  /-- What is found for a setting is the value of some text. -/
  value_given : ∀ {arguments : List (List Char)} {found : Findings}
      {setting : Setting} {value : Nat},
    reader.read arguments = .ok found →
      found.choices.get setting = some value →
        ∃ text, reader.value? setting text = some value
  /-- The program is named by an argument, which is no option or comes with the
  options ended. -/
  program_given : ∀ {arguments : List (List Char)} {found : Findings},
    reader.read arguments = .ok found →
      ∃ text ∈ arguments, reader.program? text = some found.program ∧
        (IsPlain text ∨ terminator ∈ arguments)

end Reader

/-! ### Arrangements -/

/-- Pieces give some settings in decimal, each once or not at all, and so many
details, in any order. -/
structure Arranges (pieces : List Piece) (choices : Choices) (details : Nat) :
    Prop where
  settings : ∀ setting, pieces.filterMap (Piece.text? setting) =
    ((choices.get setting).map Numeral.decimal).toList
  details : (pieces.map Piece.detail).sum = details

theorem eq_toList_of_perm {Item : Type} {items : List Item}
    {item? : Option Item} (same : items.Perm item?.toList) :
    items = item?.toList := by
  cases item? with
  | none => exact same.eq_nil
  | some item => exact same.eq_singleton

theorem undashed_decimal (value : Nat) :
    (Numeral.decimal value).head? ≠ some '-' := by
  intro dashed
  exact absurd
    (Numeral.mem_symbols_of_mem_digits (List.mem_of_mem_head? dashed))
    (by decide)

namespace Choices

/-- The choices without one of the settings. -/
def clear (choices : Choices) : Setting → Choices
  | .clockRate => { choices with clockRate := Option.none }
  | .timerRate => { choices with timerRate := Option.none }
  | .scale => { choices with scale := Option.none }
  | .seed => { choices with seed := Option.none }

theorem get_clear (choices : Choices) (setting other : Setting) :
    (choices.clear setting).get other =
      if other = setting then Option.none else choices.get other := by
  cases setting <;> cases other <;> rfl

theorem set_clear {choices : Choices} {setting : Setting} {value : Nat}
    (chosen : choices.get setting = some value) :
    (choices.clear setting).set value setting = choices := by
  apply ext_get
  intro other
  rw [get_set, get_clear]
  by_cases same : other = setting
  · rw [if_pos same, same, chosen]
  · rw [if_neg same, if_neg same]

theorem Taken.clear {choices : Choices} (taken : choices.Taken)
    (setting : Setting) : (choices.clear setting).Taken := by
  intro other value chosen
  rw [get_clear] at chosen
  split at chosen
  case isTrue => cases chosen
  case isFalse => exact taken other value chosen

end Choices

namespace Arranges

variable {pieces others rest : List Piece} {piece : Piece} {choices : Choices}
variable {details : Nat}

/-- The order of the pieces does not matter. -/
theorem of_perm (arranges : Arranges pieces choices details)
    (same : pieces.Perm others) : Arranges others choices details where
  settings setting := by
    apply eq_toList_of_perm
    rw [← arranges.settings setting]
    exact same.symm.filterMap _
  details := by
    rw [← arranges.details]
    exact (same.symm.map _).sum_eq

theorem nil_iff :
    Arranges [] choices details ↔ choices = Choices.none ∧ details = 0 := by
  constructor
  case mp =>
    intro arranges
    refine ⟨?_, arranges.details.symm⟩
    apply Choices.ext_get
    intro setting
    have unset := arranges.settings setting
    rw [Choices.get_none]
    cases chosen : choices.get setting with
    | none => rfl
    | some value =>
        rw [chosen] at unset
        cases unset
  case mpr =>
    rintro ⟨rfl, rfl⟩
    exact ⟨by simp, rfl⟩

/-- No piece is written by ending the options. -/
theorem terminator_not_mem (arranges : Arranges pieces choices details) :
    terminator ∉ pieces.flatMap Piece.words := by
  intro member
  obtain ⟨piece, given, written⟩ := List.mem_flatMap.mp member
  cases piece with
  | setting kind text joined =>
      have named : kind.name ≠ [] := by cases kind <;> decide
      have gives : text ∈ pieces.filterMap (Piece.text? kind) :=
        List.mem_filterMap.mpr ⟨_, given, by simp [Piece.text?]⟩
      rw [arranges.settings, Option.mem_toList] at gives
      obtain ⟨value, _, rfl⟩ := Option.map_eq_some_iff.mp gives
      have dashed := undashed_decimal value
      cases joined with
      | true => simp [Piece.words] at written
      | false =>
          simp only [Piece.words, List.mem_cons, List.cons.injEq, true_and,
            List.not_mem_nil, or_false] at written
          rcases written with unnamed | same
          · exact named unnamed.symm
          · rw [← same] at dashed
            exact dashed rfl
  | details more =>
      simp [Piece.words, List.replicate_succ] at written

end Arranges

namespace Reader.Documented

variable {reader : Reader} (documented : reader.Documented)

include documented

/-- What one piece of an arrangement adds to the others. -/
theorem exists_adds (program : List Char) {piece : Piece} {rest : List Piece} {choices : Choices}
    {details : Nat} (arranges : Arranges (piece :: rest) choices details)
    (taken : choices.Taken) (counted : details ≤ 255) :
    ∃ earlier fewer, Arranges rest earlier fewer ∧ earlier.Taken ∧
      fewer ≤ 255 ∧
      reader.Adds
        { program := program, choices := earlier,
          details := UInt8.ofNat fewer }
        piece
        { program := program, choices := choices,
          details := UInt8.ofNat details } := by
  obtain ⟨settings, total⟩ := arranges
  cases piece with
  | setting kind text joined =>
      have given := settings kind
      obtain ⟨value, chosen⟩ : ∃ value, choices.get kind = some value := by
        cases chosen : choices.get kind with
        | none => simp [chosen, Piece.text?] at given
        | some value => exact ⟨value, rfl⟩
      have own : Piece.text? kind (.setting kind text joined) = some text :=
        if_pos rfl
      rw [chosen, List.filterMap_cons_some own, Option.map_some,
        Option.toList_some, List.cons.injEq] at given
      obtain ⟨rfl, alone⟩ := given
      refine ⟨choices.clear kind, details, ⟨?others, ?sum⟩,
        taken.clear kind, counted, ?adds⟩
      case others =>
        intro other
        rw [Choices.get_clear]
        by_cases same : other = kind
        · rw [if_pos same, same]
          exact alone
        · rw [if_neg same, ← settings other, List.filterMap_cons_none]
          exact if_neg (Ne.symm same)
      case sum => simpa [Piece.detail] using total
      case adds =>
        have unset : (choices.clear kind).get kind = none := by
          rw [Choices.get_clear, if_pos rfl]
        have adds : reader.Adds
            ⟨program, choices.clear kind, UInt8.ofNat details⟩
            (.setting kind (Numeral.decimal value) joined) _ :=
          .setting unset (fun _ => undashed_decimal value)
            (documented.value_decimal (taken kind value chosen))
        rwa [Choices.set_clear chosen] at adds
  | details more =>
      have sum : (rest.map Piece.detail).sum + (more + 1) = details := by
        rw [← total, List.map_cons, List.sum_cons, Nat.add_comm]
        rfl
      refine ⟨choices, (rest.map Piece.detail).sum, ⟨?same, rfl⟩, taken,
        by omega, ?counts⟩
      case same => exact settings
      case counts =>
        have small : (UInt8.ofNat (rest.map Piece.detail).sum).toNat =
            (rest.map Piece.detail).sum :=
          UInt8.toNat_ofNat_of_lt' (by unfold UInt8.size; omega)
        have adds : reader.Adds
            ⟨program, choices, UInt8.ofNat (rest.map Piece.detail).sum⟩
            (.details more) _ :=
          .details (by rw [small]; omega)
        rwa [← UInt8.ofNat_add, sum] at adds

/-- What is read of a program with options around it.  The options after the
program are added first, one by one at the end, and then those before it, one by
one in front. -/
theorem read_of_arranges {program : List Char} (named : program ≠ [])
    (isPlain : IsPlain program) {before after : List Piece}
    {choices : Choices} {details : Nat}
    (arranges : Arranges (before ++ after) choices details)
    (taken : choices.Taken) (counted : details ≤ 255) :
    reader.read
        (before.flatMap Piece.words ++ program :: after.flatMap Piece.words) =
      .ok
        { program := program, choices := choices,
          details := UInt8.ofNat details } := by
  induction before generalizing choices details with
  | nil =>
      rw [List.nil_append] at arranges
      rw [List.flatMap_nil, List.nil_append]
      induction after using List.reverseRecOn generalizing choices details with
      | nil =>
          obtain ⟨rfl, rfl⟩ := Arranges.nil_iff.mp arranges
          exact documented.program_alone isPlain
            (documented.program_filled named)
      | append_singleton earlier piece ih =>
          obtain ⟨choices, details, remaining, fewer, less, adds⟩ :=
            documented.exists_adds program
              (arranges.of_perm (List.perm_append_singleton piece earlier))
              taken counted
          have unended :
              terminator ∉ program :: earlier.flatMap Piece.words := by
            rw [List.mem_cons, not_or]
            refine ⟨?_, remaining.terminator_not_mem⟩
            rintro rfl
            exact absurd (isPlain rfl) (by decide)
          rw [List.flatMap_append, List.flatMap_singleton, ← List.cons_append]
          exact documented.option_last unended (ih remaining fewer less) adds
  | cons piece rest ih =>
      obtain ⟨choices, details, remaining, fewer, less, adds⟩ :=
        documented.exists_adds program arranges taken counted
      rw [List.flatMap_cons, List.append_assoc]
      exact documented.option_first (ih remaining fewer less) adds

/-- Whatever is found is within limits, and only a lone dash or the end of the
options lets a program begin with a dash. -/
theorem limits_of_read {arguments : List (List Char)} {found : Findings}
    (reads : reader.read arguments = .ok found) :
    (Options.ofFindings found).WithinLimits ∧
      (IsPlain found.program ∨ terminator ∈ arguments) := by
  have taken : found.choices.Taken := by
    intro setting value chosen
    obtain ⟨text, valued⟩ := documented.value_given reads chosen
    exact documented.value_takes valued
  obtain ⟨text, _, names, dashes⟩ := documented.program_given reads
  have filled : text ≠ [] := by
    rintro rfl
    rw [documented.program_empty] at names
    cases names
  rw [documented.program_filled filled] at names
  cases names
  have counted : found.details.toNat ≤ 255 := by
    have := found.details.toNat_lt
    omega
  exact ⟨taken.withinLimits filled counted, dashes⟩

end Reader.Documented

end CommandLine

end ChipEight
