import ChipEight.Proofs.CommandLine.Documented
import ChipEight.Proofs.CommandLine.Steps

/-!
# The standard reader is documented

A reading that completes its arguments, that is, reads them all and settles what
is left pending, can be taken apart: after some of the arguments it may be
settled early, and what one more option adds can be there from the start.  The
first puts an option at the end of a command line and the second one at the
front.

Where the things found come from is an invariant of the steps.
-/

namespace ChipEight

namespace CommandLine

namespace Setting

theorem takes_of_value? {setting : Setting} {text : List Char} {value : Nat}
    (valued : setting.value? text = some value) : setting.Takes value := by
  rw [value?, Option.filter_eq_some_iff, decide_eq_true_eq] at valued
  exact valued.2

theorem value?_decimal {setting : Setting} {value : Nat}
    (takes : setting.Takes value) :
    setting.value? (Numeral.decimal value) = some value := by
  have bare : unsigned (Numeral.decimal value) = Numeral.decimal value := by
    unfold unsigned
    split
    case h_1 rest numeral =>
      have member : '+' ∈ Numeral.decimal value := by
        rw [numeral]
        exact List.mem_cons_self ..
      exact absurd (Numeral.mem_symbols_of_mem_digits member) (by decide)
    case h_2 => rfl
  have read : Numeral.read? 10 (Numeral.decimal value) = some value :=
    Numeral.read?_digits (by decide) (by decide) value
  rw [value?, bare, read, Option.filter_some, decide_eq_true takes]
  rfl

end Setting

theorem programOf?_filled {text : List Char} (filled : text ≠ []) :
    programOf? text = some text := by
  obtain ⟨first, rest, rfl⟩ := List.exists_cons_of_ne_nil filled
  rfl

theorem Choices.set_comm (choices : Choices) {kind other : Setting}
    (different : kind ≠ other) (value further : Nat) :
    (choices.set value kind).set further other =
      (choices.set further other).set value kind := by
  apply ext_get
  intro setting
  simp only [get_set]
  by_cases same : setting = other
  · rw [if_pos same, if_neg (same.trans_ne different.symm), if_pos same]
  · rw [if_neg same, if_neg same]

namespace Reading

/-! ### Completing arguments -/

/-- All arguments are read and what is left pending is settled. -/
def Completes (reading : Reading) (arguments : List (List Char))
    (settled : Reading) : Prop :=
  ∃ last, reading.readAll arguments = .ok last ∧ last.Settles settled

variable {reading following settled after fuller : Reading}
variable {argument : List Char} {arguments rest : List (List Char)}
variable {piece : Piece}

theorem completes_nil :
    reading.Completes [] settled ↔ reading.Settles settled := by
  simp [Completes, readAll]

theorem completes_cons :
    reading.Completes (argument :: rest) settled ↔
      ∃ following, reading.Follows argument following ∧
        following.Completes rest settled := by
  simp only [Completes, readAll, bind_eq_ok, next_eq_ok]
  tauto

theorem Settles.ended (settles : reading.Settles settled) :
    { reading with literal := true }.Settles
      { settled with literal := true } := by
  rcases settles with idle | ⟨filled, waits⟩ | ⟨waits, unset, valued⟩
  case idle => exact .idle idle
  case program => exact .program filled waits
  case setting => exact .setting waits unset valued

theorem Completes.pending (completes : reading.Completes arguments settled) :
    settled.pending = none := by
  obtain ⟨_, _, settles⟩ := completes
  exact settles.pending

/-- Settling early leads to where settling at the end does. -/
theorem Settles.completes (settles : reading.Settles settled)
    (completes : settled.Completes arguments after) :
    reading.Completes arguments after := by
  induction arguments generalizing reading settled with
  | nil =>
      rw [completes_nil, settles_iff_of_idle settles.pending] at completes
      rw [completes_nil, completes]
      exact settles
  | cons argument rest ih =>
      obtain ⟨following, follows, completes⟩ := completes_cons.mp completes
      rw [completes_cons]
      rcases follows with ⟨unended, ends⟩ | ⟨_, waits, _⟩ | ⟨again, acts⟩
      case terminator =>
        have opened := settles.literal.symm.trans unended
        exact ⟨_, .terminator opened ends, ih settles.ended completes⟩
      case value =>
        rw [settles.pending] at waits
        cases waits
      case action =>
        cases (settles_iff_of_idle settles.pending).mp again
        exact ⟨following, .action settles acts, completes⟩

theorem Completes.append {others : List (List Char)}
    (first : reading.Completes arguments settled)
    (second : settled.Completes others after) :
    reading.Completes (arguments ++ others) after := by
  induction arguments generalizing reading with
  | nil => exact (completes_nil.mp first).completes second
  | cons argument rest ih =>
      obtain ⟨following, follows, completes⟩ := completes_cons.mp first
      exact completes_cons.mpr ⟨following, follows, ih completes⟩

/-- A program alone is a command line. -/
theorem completes_program {text : List Char} (filled : text ≠ [])
    (isPlain : IsPlain text) :
    start.Completes [text]
      { start with programRead := true, program := some text } := by
  have form := Token.ofArgument_of_plain isPlain
  refine completes_cons.mpr
    ⟨_, .action (.idle rfl) (.program rfl (.inr form)), ?_⟩
  exact completes_nil.mpr (.program filled rfl)

/-! ### One more option -/

/-- What a piece adds to the choices and to how much detail was asked for. -/
inductive Gains (choices : Choices) (verbosity : Nat) :
    Piece → Choices → Nat → Prop
  | setting {kind : Setting} {text : List Char} {joined : Bool} {value : Nat}
      (unset : choices.get kind = none)
      (separable : joined = false → text.head? ≠ some '-')
      (valued : kind.value? text = some value) :
      Gains choices verbosity (.setting kind text joined)
        (choices.set value kind) verbosity
  | details {more : Nat} :
      Gains choices verbosity (.details more) choices
        (min 255 (verbosity + (more + 1)))

/-- What a piece adds to a reading. -/
inductive Adds (reading : Reading) (piece : Piece) : Reading → Prop
  | intro {choices : Choices} {verbosity : Nat}
      (gains : Gains reading.choices reading.verbosity piece choices verbosity) :
      reading.Adds piece
        { reading with choices := choices, verbosity := verbosity }

section Gains

variable {choices fullChoices : Choices} {verbosity full : Nat}

/-- What is gained after one more setting can be gained before it. -/
theorem Gains.of_set {other : Setting} {further : Nat}
    (gains : Gains (choices.set further other) verbosity piece fullChoices full)
    (free : choices.get other = none) :
    ∃ between, Gains choices verbosity piece between full ∧
      between.get other = none ∧ between.set further other = fullChoices := by
  rcases gains with @⟨kind, text, joined, value, unset, separable, valued⟩ | _
  case setting =>
    rw [Choices.get_set] at unset
    split at unset
    case isTrue => cases unset
    case isFalse different =>
      refine ⟨choices.set value kind, .setting unset separable valued, ?_,
        choices.set_comm different value further⟩
      rw [Choices.get_set, if_neg (Ne.symm different)]
      exact free
  case details => exact ⟨choices, .details, free, rfl⟩

/-- What is gained after more detail can be gained before it. -/
theorem Gains.of_count {further : Nat}
    (gains : Gains choices (min 255 (verbosity + further)) piece fullChoices
      full) :
    ∃ between, Gains choices verbosity piece fullChoices between ∧
      min 255 (between + further) = full := by
  rcases gains with ⟨unset, separable, valued⟩ | _
  case setting => exact ⟨verbosity, .setting unset separable valued, rfl⟩
  case details more =>
    refine ⟨min 255 (verbosity + (more + 1)), .details, ?_⟩
    omega

end Gains

/-- The arguments of a piece add what it says. -/
theorem Adds.completes (adds : reading.Adds piece after)
    (idle : reading.pending = none) (unended : reading.literal = false) :
    reading.Completes piece.words after := by
  obtain ⟨@⟨kind, text, joined, value, unset, separable, valued⟩ | @⟨more⟩⟩ :=
    adds
  case setting =>
    rcases joined with _ | _
    case true =>
      refine completes_cons.mpr ⟨_, .action (.idle idle)
        (.choice unended (Token.ofArgument_joined kind text) unset valued), ?_⟩
      exact completes_nil.mpr (.idle idle)
    case false =>
      refine completes_cons.mpr ⟨_, .action (.idle idle)
        (.setting unended (Token.ofArgument_name kind)), ?_⟩
      have form := Token.ofArgument_of_plain fun dashed =>
        absurd dashed (separable rfl)
      refine completes_cons.mpr ⟨_, .value unended rfl form, ?_⟩
      obtain ⟨_, _, _, _, _, _⟩ := reading
      cases idle
      exact completes_nil.mpr (.setting rfl unset valued)
  case details =>
    refine completes_cons.mpr ⟨_, .action (.idle idle)
      (.details unended (.inr (Token.ofArgument_letters more))), ?_⟩
    exact completes_nil.mpr (.idle idle)

/-- What is added in the end may be there before what is pending is
settled. -/
theorem Settles.frame (settles : reading.Settles settled)
    (adds : settled.Adds piece fuller) :
    ∃ more, reading.Adds piece more ∧ more.Settles fuller := by
  obtain ⟨gains⟩ := adds
  rcases settles with idle | ⟨filled, waits⟩ | ⟨waits, unset, valued⟩
  case idle => exact ⟨_, .intro gains, .idle idle⟩
  case program => exact ⟨_, .intro gains, .program filled waits⟩
  case setting =>
    obtain ⟨between, earlier, unset, rfl⟩ := gains.of_set unset
    exact ⟨_, .intro earlier, .setting waits unset valued⟩

/-- What is added in the end may be there before an argument is acted on. -/
theorem Acts.frame (acts : settled.Acts argument after)
    (adds : after.Adds piece fuller) :
    ∃ more, settled.Adds piece more ∧ more.Acts argument fuller := by
  obtain ⟨gains⟩ := adds
  rcases acts with ⟨unread, plain⟩ | ⟨unended, form⟩ |
    ⟨unended, form, unset, valued⟩ | ⟨unended, counts⟩
  case program => exact ⟨_, .intro gains, .program unread plain⟩
  case setting => exact ⟨_, .intro gains, .setting unended form⟩
  case choice =>
    obtain ⟨between, earlier, unset, rfl⟩ := gains.of_set unset
    exact ⟨_, .intro earlier, .choice unended form unset valued⟩
  case details =>
    obtain ⟨between, earlier, rfl⟩ := gains.of_count
    exact ⟨_, .intro earlier, .details unended counts⟩

theorem Follows.frame (follows : reading.Follows argument following)
    (adds : following.Adds piece fuller) :
    ∃ more, reading.Adds piece more ∧ more.Follows argument fuller := by
  rcases follows with ⟨unended, ends⟩ | ⟨unended, waits, plain⟩ |
    ⟨settles, acts⟩
  case terminator =>
    obtain ⟨gains⟩ := adds
    exact ⟨_, .intro gains, .terminator unended ends⟩
  case value =>
    obtain ⟨gains⟩ := adds
    exact ⟨_, .intro gains, .value unended waits plain⟩
  case action =>
    obtain ⟨more, adds, acts⟩ := acts.frame adds
    obtain ⟨most, adds, settles⟩ := settles.frame adds
    exact ⟨most, adds, .action settles acts⟩

/-- What is added in the end may be there from the start. -/
theorem Completes.frame (completes : reading.Completes arguments settled)
    (adds : settled.Adds piece fuller) :
    ∃ more, reading.Adds piece more ∧ more.Completes arguments fuller := by
  induction arguments generalizing reading with
  | nil =>
      simp only [completes_nil] at completes ⊢
      exact completes.frame adds
  | cons argument rest ih =>
      obtain ⟨following, follows, completes⟩ := completes_cons.mp completes
      obtain ⟨more, adds, completes⟩ := ih completes
      obtain ⟨most, adds, follows⟩ := follows.frame adds
      exact ⟨most, adds, completes_cons.mpr ⟨more, follows, completes⟩⟩

/-! ### Where things come from -/

/-- An argument can be the program. -/
def Names (arguments : List (List Char)) (text : List Char) : Prop :=
  text ∈ arguments ∧ (IsPlain text ∨ terminator ∈ arguments)

/-- What has been read so far comes from the arguments. -/
structure Sound (arguments : List (List Char)) (reading : Reading) : Prop where
  choices : ∀ {kind : Setting} {value : Nat},
    reading.choices.get kind = some value →
      ∃ text, kind.value? text = some value
  verbosity : reading.verbosity ≤ 255
  literal : reading.literal = true → terminator ∈ arguments
  pending : ∀ {text : List Char}, reading.pending = some (.program text) →
    Names arguments text
  program : ∀ {text : List Char}, reading.program = some text →
    text ≠ [] ∧ Names arguments text

theorem sound_start (arguments : List (List Char)) :
    start.Sound arguments where
  choices := by simp [start]
  verbosity := Nat.zero_le _
  literal := by simp [start]
  pending := by simp [start]
  program := by simp [start]

/-- One more choice is the value of a text as well. -/
theorem Sound.chosen (sound : reading.Sound arguments) {kind other : Setting}
    {text : List Char} {value found : Nat}
    (valued : kind.value? text = some value)
    (chosen : (reading.choices.set value kind).get other = some found) :
    ∃ text, other.value? text = some found := by
  rw [Choices.get_set] at chosen
  split at chosen
  case isTrue same =>
    cases chosen
    rw [same]
    exact ⟨text, valued⟩
  case isFalse => exact sound.choices chosen

theorem Settles.sound (settles : reading.Settles settled)
    (sound : reading.Sound arguments) : settled.Sound arguments := by
  rcases settles with idle | ⟨filled, waits⟩ | ⟨waits, unset, valued⟩
  case idle => exact sound
  case program =>
    exact { sound with
      pending := by simp
      program := by
        rintro _ ⟨⟩
        exact ⟨filled, sound.pending waits⟩ }
  case setting =>
    exact { sound with
      choices := sound.chosen valued
      pending := by simp }

theorem Acts.sound (acts : settled.Acts argument after)
    (given : argument ∈ arguments) (sound : settled.Sound arguments) :
    after.Sound arguments := by
  rcases acts with ⟨unread, plain⟩ | _ | ⟨_, _, unset, valued⟩ | _
  case program =>
    have names : Names arguments argument := by
      refine ⟨given, ?_⟩
      rcases plain with literal | form
      case inl => exact .inr (sound.literal literal)
      case inr => exact .inl (Token.eq_of_plain form).2
    exact { sound with
      pending := by
        rintro _ ⟨⟩
        exact names }
  case setting => exact { sound with pending := by simp }
  case choice => exact { sound with choices := sound.chosen valued }
  case details => exact { sound with verbosity := Nat.min_le_left _ _ }

theorem Follows.sound (follows : reading.Follows argument following)
    (given : argument ∈ arguments) (sound : reading.Sound arguments) :
    following.Sound arguments := by
  rcases follows with ⟨_, ends⟩ | _ | ⟨settles, acts⟩
  case terminator =>
    rw [Token.eq_of_terminator ends] at given
    exact { sound with literal := fun _ => given }
  case value => exact { sound with pending := by simp }
  case action => exact acts.sound given (settles.sound sound)

theorem Completes.sound (completes : reading.Completes rest settled)
    (given : rest ⊆ arguments) (sound : reading.Sound arguments) :
    settled.Sound arguments := by
  induction rest generalizing reading with
  | nil => exact (completes_nil.mp completes).sound sound
  | cons argument rest ih =>
      obtain ⟨following, follows, completes⟩ := completes_cons.mp completes
      rw [List.cons_subset] at given
      exact ih completes given.2 (follows.sound given.1 sound)

/-! ### What the reader finds -/

/-- What a completed reading found. -/
def Yields (settled : Reading) (found : Findings) : Prop :=
  settled.program = some found.program ∧ settled.choices = found.choices ∧
    UInt8.ofNat settled.verbosity = found.details

variable {found : Findings}

theorem gather_eq_ok : settled.gather = .ok found ↔ settled.Yields found := by
  obtain ⟨program, choices, details⟩ := found
  unfold gather Yields
  cases settled.program <;> simp

theorem read_eq_ok :
    Reader.standard.read arguments = .ok found ↔
      ∃ settled, start.Completes arguments settled ∧ settled.Yields found := by
  simp only [Reader.standard, bind_eq_ok, settle_eq_ok, gather_eq_ok, Completes]
  tauto

/-- What is found was completed from the start, so it comes from the
arguments. -/
theorem exists_of_read (reads : Reader.standard.read arguments = .ok found) :
    ∃ settled, start.Completes arguments settled ∧
      settled.Sound arguments ∧ settled.Yields found := by
  obtain ⟨settled, completes, yields⟩ := read_eq_ok.mp reads
  exact ⟨settled, completes,
    completes.sound (List.Subset.refl _) (sound_start _), yields⟩

/-- What a piece adds to what was found, it adds to the reading that found
it. -/
theorem Yields.adds {more : Findings} (yields : settled.Yields found)
    (counted : settled.verbosity ≤ 255)
    (adds : Reader.standard.Adds found piece more) :
    ∃ fuller, settled.Adds piece fuller ∧ fuller.Yields more := by
  obtain ⟨named, chosen, details⟩ := yields
  rcases adds with ⟨unset, separable, valued⟩ | ⟨room⟩
  case setting =>
    rw [← chosen] at unset
    refine ⟨_, .intro (.setting unset separable valued), named, ?_, details⟩
    simp only [chosen]
  case details further =>
    refine ⟨_, .intro .details, named, chosen, ?_⟩
    rw [← details] at room ⊢
    rw [UInt8.toNat_ofNat_of_lt' (by unfold UInt8.size; omega)] at room
    rw [← UInt8.ofNat_add]
    exact congrArg UInt8.ofNat (Nat.min_eq_right room)

end Reading

theorem documented_standard : Reader.standard.Documented where
  value_takes := Setting.takes_of_value?
  value_decimal := Setting.value?_decimal
  program_empty := rfl
  program_filled := programOf?_filled
  program_alone := by
    intro text program isPlain names
    have filled : text ≠ [] := by
      rintro rfl
      cases names
    change programOf? text = some program at names
    rw [programOf?_filled filled] at names
    cases names
    rw [Reading.read_eq_ok]
    exact ⟨_, Reading.completes_program filled isPlain, rfl, rfl, rfl⟩
  option_first := by
    intro piece arguments found after reads adds
    obtain ⟨settled, completes, sound, yields⟩ := Reading.exists_of_read reads
    obtain ⟨fuller, adds, yields⟩ := yields.adds sound.verbosity adds
    obtain ⟨first, adds, completes⟩ := completes.frame adds
    rw [Reading.read_eq_ok]
    exact ⟨fuller, (adds.completes rfl rfl).append completes, yields⟩
  option_last := by
    intro piece arguments found after unended reads adds
    obtain ⟨settled, completes, sound, yields⟩ := Reading.exists_of_read reads
    obtain ⟨fuller, adds, yields⟩ := yields.adds sound.verbosity adds
    have opened : settled.literal = false :=
      Bool.eq_false_iff.mpr fun ended => unended (sound.literal ended)
    rw [Reading.read_eq_ok]
    exact ⟨fuller, completes.append (adds.completes completes.pending opened),
      yields⟩
  value_given := by
    intro arguments found kind value reads chosen
    obtain ⟨settled, _, sound, _, choices, _⟩ := Reading.exists_of_read reads
    rw [← choices] at chosen
    exact sound.choices chosen
  program_given := by
    intro arguments found reads
    obtain ⟨settled, _, sound, named, _⟩ := Reading.exists_of_read reads
    obtain ⟨filled, given, plain⟩ := sound.program named
    exact ⟨_, given, programOf?_filled filled, plain⟩

end CommandLine

end ChipEight
