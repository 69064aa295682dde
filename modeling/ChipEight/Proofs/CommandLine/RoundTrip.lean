import ChipEight.Proofs.CommandLine.Standard

/-!
# Command lines there and back

A documented reader reads off a command line what it was arranged to say, and
whatever it reads is within limits.
-/

namespace ChipEight

namespace CommandLine

/-- The arguments of a program with options before and after it. -/
def commandLine (before : List Piece) (program : List Char)
    (after : List Piece) : List String :=
  (before.flatMap Piece.words ++ program :: after.flatMap Piece.words).map
    String.ofList

theorem toList_commandLine (before after : List Piece)
    (program : List Char) :
    (commandLine before program after).map String.toList =
      before.flatMap Piece.words ++ program :: after.flatMap Piece.words := by
  unfold commandLine
  rw [List.map_map]
  exact List.map_id'' (fun _ => String.toList_ofList) _

namespace Reader

variable {reader : Reader} {arguments : List String} {options : Options}

theorem parse_eq_ok :
    reader.parse arguments = .ok options ↔
      ∃ found, reader.read (arguments.map String.toList) = .ok found ∧
        Options.ofFindings found = options := by
  unfold parse
  cases reader.read (arguments.map String.toList) <;> simp [Except.map]

theorem Documented.parse_commandLine (documented : reader.Documented)
    {program : List Char} (isPlain : IsPlain program)
    {before after : List Piece} {choices : Choices} {verbosity : Nat}
    (arranges : Arranges (before ++ after) choices verbosity)
    (limits : (Options.ofChoices program choices verbosity).WithinLimits) :
    reader.parse (commandLine before program after) =
      .ok (Options.ofChoices program choices verbosity) := by
  have counted : verbosity ≤ 255 := limits.verbosity
  have reads := documented.read_of_arranges limits.program isPlain arranges
    (Choices.taken_of_withinLimits limits) counted
  rw [parse_eq_ok, toList_commandLine]
  refine ⟨_, reads, ?_⟩
  unfold Options.ofFindings
  rw [UInt8.toNat_ofNat_of_lt' (by unfold UInt8.size; omega)]
  rfl

end Reader

end CommandLine

end ChipEight
