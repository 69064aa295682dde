import ChipEight.CommandLine.Options

/-!
# The limits of options

Every setting has a range, and its default lies in it.  So options are within
limits exactly if every setting that was made is.
-/

namespace ChipEight

namespace CommandLine

/-- The values that options can have. -/
structure Options.WithinLimits (options : Options) : Prop where
  clockRate : 1 ≤ options.clockRate ∧ options.clockRate ≤ 4294967295
  timerRate : 1 ≤ options.timerRate ∧ options.timerRate ≤ 4294967295
  scale : 1 ≤ options.scale ∧ options.scale ≤ 64
  seed : ∀ seed, options.seed = some seed → seed ≤ 18446744073709551615
  verbosity : options.verbosity ≤ 255
  program : options.program ≠ []

namespace Choices

@[simp]
theorem get_none (setting : Setting) : none.get setting = Option.none := by
  cases setting <;> rfl

theorem get_set (choices : Choices) (value : Nat) (setting other : Setting) :
    (choices.set value setting).get other =
      if other = setting then some value else choices.get other := by
  cases setting <;> cases other <;> rfl

theorem ext_get {first second : Choices}
    (same : ∀ setting, first.get setting = second.get setting) :
    first = second := by
  obtain ⟨_, _, _, _⟩ := first
  obtain ⟨_, _, _, _⟩ := second
  cases same .clockRate
  cases same .timerRate
  cases same .scale
  cases same .seed
  rfl

/-- Every setting that was made takes its value. -/
def Taken (choices : Choices) : Prop :=
  ∀ setting value, choices.get setting = some value → setting.Takes value

/-- Options that follow from choices are within limits, since the defaults
are. -/
theorem Taken.withinLimits {choices : Choices} (taken : choices.Taken)
    {program : List Char} (named : program ≠ []) {verbosity : Nat}
    (counted : verbosity ≤ 255) :
    (Options.ofChoices program choices verbosity).WithinLimits := by
  have rate : ∀ (choice : Option Nat) (default greatest : Nat),
      (1 ≤ default ∧ default ≤ greatest) →
      (∀ value, choice = some value → 1 ≤ value ∧ value ≤ greatest) →
      1 ≤ choice.getD default ∧ choice.getD default ≤ greatest := by
    intro choice default greatest usual takes
    cases choice with
    | none => exact usual
    | some value => exact takes value rfl
  constructor
  case clockRate => exact rate _ _ _ (by decide) (taken .clockRate)
  case timerRate => exact rate _ _ _ (by decide) (taken .timerRate)
  case scale => exact rate _ _ _ (by decide) (taken .scale)
  case seed => exact fun seed chosen => (taken .seed seed chosen).2
  case verbosity => exact counted
  case program => exact named

theorem taken_of_withinLimits {program : List Char} {choices : Choices}
    {verbosity : Nat}
    (limits : (Options.ofChoices program choices verbosity).WithinLimits) :
    choices.Taken := by
  intro setting value chosen
  have rate : ∀ (choice : Option Nat) (default greatest : Nat),
      (1 ≤ choice.getD default ∧ choice.getD default ≤ greatest) →
      choice = some value → 1 ≤ value ∧ value ≤ greatest := by
    rintro _ default greatest within rfl
    exact within
  cases setting with
  | clockRate => exact rate _ _ _ limits.clockRate chosen
  | timerRate => exact rate _ _ _ limits.timerRate chosen
  | scale => exact rate _ _ _ limits.scale chosen
  | seed => exact ⟨Nat.zero_le _, limits.seed value chosen⟩

end Choices

end CommandLine

end ChipEight
