import Mathlib.Data.List.TakeWhile
import ChipEight.CommandLine.Parser

/-!
# Steps of a reading

What reading one argument does, as a relation.  Two kinds of argument leave
alone what is pending: the end of the options, and the value that a setting
waits for.  Before any other is acted on, what is pending is settled.  So a step
is one of these two, or a settling followed by one of four actions.

Whatever holds of every reading is shown for every way to settle, for every
action and for every step, and the functions of the reader are not opened again.
-/

namespace ChipEight

namespace CommandLine

/-! ### Forms of arguments -/

namespace Setting

theorem name_ne_nil (setting : Setting) : setting.name ≠ [] := by
  cases setting <;> decide

theorem not_mem_name (setting : Setting) : '=' ∉ setting.name := by
  cases setting <;> decide

theorem ofName?_eq_some {name : List Char} {setting : Setting} :
    ofName? name = some setting ↔ setting.name = name := by
  constructor
  case mp =>
    intro found
    have named := List.find?_some found
    exact eq_of_beq named
  case mpr =>
    rintro rfl
    cases setting <;> decide

end Setting

theorem Switch.ofName?_eq_verbose {name : List Char} :
    ofName? name = some verbose ↔ name = "verbose".toList := by
  rw [ofName?]
  split
  case isTrue same => simp [same]
  case isFalse other =>
    simp only [other, iff_false]
    split
    case isTrue => simp
    case isFalse => split <;> simp

theorem Switch.ofLetter?_eq_verbose {letter : Char} :
    ofLetter? letter = some verbose ↔ letter = 'v' := by
  unfold ofLetter?
  split <;> simp_all

namespace Token

variable {argument text : List Char}

theorem ofArgument_of_plain (lone : text.head? = some '-' → text = ['-']) :
    ofArgument text = plain text := by
  unfold ofArgument
  split <;> simp_all

theorem exists_ofLong_eq (text : List Char) :
    ∃ name value, ofLong text = long name value := by
  rw [ofLong]
  split <;> exact ⟨_, _, rfl⟩

theorem ofLong_of_free {name : List Char} (free : '=' ∉ name) :
    ofLong name = long name none := by
  have whole : name.takeWhile (· != '=') = name := by
    rw [List.takeWhile_eq_self_iff]
    intro character member
    rw [bne_iff_ne]
    rintro rfl
    exact free member
  unfold ofLong
  simp only [whole, List.drop_length]

theorem ofLong_append {name : List Char} (free : '=' ∉ name)
    (value : List Char) :
    ofLong (name ++ '=' :: value) = long name (some value) := by
  have whole : (name ++ '=' :: value).takeWhile (· != '=') = name := by
    rw [List.takeWhile_append_of_pos]
    · simp
    · intro character member
      rw [bne_iff_ne]
      rintro rfl
      exact free member
  unfold ofLong
  simp only [whole, List.drop_left]

theorem ofArgument_long (filled : text ≠ []) :
    ofArgument ('-' :: '-' :: text) = ofLong text := by
  obtain ⟨first, rest, rfl⟩ := List.exists_cons_of_ne_nil filled
  rfl

theorem ofArgument_name (setting : Setting) :
    ofArgument ('-' :: '-' :: setting.name) = long setting.name none := by
  rw [ofArgument_long setting.name_ne_nil,
    ofLong_of_free setting.not_mem_name]

theorem ofArgument_joined (setting : Setting) (value : List Char) :
    ofArgument ('-' :: '-' :: (setting.name ++ '=' :: value)) =
      long setting.name (some value) := by
  rw [ofArgument_long (by simp), ofLong_append setting.not_mem_name]

theorem ofArgument_letters (more : Nat) :
    ofArgument ('-' :: List.replicate (more + 1) 'v') =
      short (List.replicate (more + 1) 'v') := by
  rw [List.replicate_succ]
  rfl

/-- The forms of an argument: an option begins with a dash and has more than
that. -/
theorem ofArgument_cases (argument : List Char) :
    (ofArgument argument = plain argument ∧
        (argument.head? = some '-' → argument = ['-'])) ∨
      (ofArgument argument = terminator ∧ argument = ['-', '-']) ∨
      (∃ name value, ofArgument argument = long name value) ∨
      ∃ letters, letters ≠ [] ∧ ofArgument argument = short letters := by
  unfold ofArgument
  split
  case h_1 => exact .inl ⟨rfl, fun _ => rfl⟩
  case h_2 => exact .inr (.inl ⟨rfl, rfl⟩)
  case h_3 => exact .inr (.inr (.inl (exists_ofLong_eq _)))
  case h_4 filled _ _ => exact .inr (.inr (.inr ⟨_, filled, rfl⟩))
  case h_5 undashed =>
    refine .inl ⟨rfl, ?_⟩
    intro dashed
    obtain ⟨letters, rfl⟩ := List.head?_eq_some_iff.mp dashed
    exact (undashed letters rfl).elim

theorem eq_of_plain (isPlain : ofArgument argument = plain text) :
    text = argument ∧ (argument.head? = some '-' → argument = ['-']) := by
  rcases ofArgument_cases argument with
    ⟨form, lone⟩ | ⟨form, _⟩ | ⟨_, _, form⟩ | ⟨_, _, form⟩ <;>
    rw [form] at isPlain <;> cases isPlain
  exact ⟨rfl, lone⟩

theorem eq_of_terminator (ends : ofArgument argument = terminator) :
    argument = ['-', '-'] := by
  rcases ofArgument_cases argument with
    ⟨form, _⟩ | ⟨form, same⟩ | ⟨_, _, form⟩ | ⟨_, _, form⟩ <;>
    rw [form] at ends <;> cases ends
  exact same

/-- A group of short options has a letter. -/
theorem ne_nil_of_short {letters : List Char}
    (group : ofArgument argument = short letters) : letters ≠ [] := by
  rcases ofArgument_cases argument with
    ⟨form, _⟩ | ⟨form, _⟩ | ⟨_, _, form⟩ | ⟨_, filled, form⟩ <;>
    rw [form] at group <;> cases group
  exact filled

end Token

/-! ### Settling and acting -/

namespace Reading

/-- Settling takes over what is pending, if it is complete and makes sense. -/
inductive Settles (reading : Reading) : Reading → Prop
  | idle (idle : reading.pending = none) : reading.Settles reading
  | program {text : List Char} (filled : text ≠ [])
      (waits : reading.pending = some (.program text)) :
      reading.Settles { reading with pending := none, program := some text }
  | setting {kind : Setting} {text : List Char} {value : Nat}
      (waits : reading.pending = some (.setting kind (some text)))
      (unset : reading.choices.get kind = none)
      (valued : kind.value? text = some value) :
      reading.Settles
        { reading with
          pending := none,
          choices := reading.choices.set value kind }

/-- What an argument does to a settled reading. -/
inductive Acts (settled : Reading) (argument : List Char) : Reading → Prop
  | program (unread : settled.programRead = false)
      (plain : settled.literal = true ∨
        Token.ofArgument argument = .plain argument) :
      settled.Acts argument
        { settled with
          programRead := true,
          pending := some (.program argument) }
  | setting {kind : Setting} (unended : settled.literal = false)
      (long : Token.ofArgument argument = .long kind.name none) :
      settled.Acts argument
        { settled with pending := some (.setting kind none) }
  | choice {kind : Setting} {text : List Char} {value : Nat}
      (unended : settled.literal = false)
      (long : Token.ofArgument argument = .long kind.name (some text))
      (unset : settled.choices.get kind = none)
      (valued : kind.value? text = some value) :
      settled.Acts argument
        { settled with choices := settled.choices.set value kind }
  | details {more : Nat} (unended : settled.literal = false)
      (counts :
        Token.ofArgument argument = .long "verbose".toList none ∧ more = 0 ∨
        Token.ofArgument argument = .short (List.replicate (more + 1) 'v')) :
      settled.Acts argument (settled.count (more + 1))

/-- What an argument does to a reading. -/
inductive Follows (reading : Reading) (argument : List Char) : Reading → Prop
  | terminator (unended : reading.literal = false)
      (ends : Token.ofArgument argument = .terminator) :
      reading.Follows argument { reading with literal := true }
  | value {kind : Setting} (unended : reading.literal = false)
      (waits : reading.pending = some (.setting kind none))
      (plain : Token.ofArgument argument = .plain argument) :
      reading.Follows argument
        { reading with pending := some (.setting kind (some argument)) }
  | action {settled after : Reading} (settles : reading.Settles settled)
      (acts : settled.Acts argument after) : reading.Follows argument after

variable {reading settled after : Reading} {argument text : List Char}

/-! ### What the reader does -/

theorem bind_eq_ok {Item Result : Type} {attempt : Except Refusal Item}
    {further : Item → Except Refusal Result} {result : Result} :
    (attempt >>= further) = .ok result ↔
      ∃ item, attempt = .ok item ∧ further item = .ok result := by
  cases attempt <;> simp [bind, Except.bind]

theorem choose_eq_ok {kind : Setting} :
    reading.choose kind text = .ok after ↔
      reading.choices.get kind = none ∧ ∃ value,
        kind.value? text = some value ∧
          { reading with choices := reading.choices.set value kind } =
            after := by
  unfold choose
  split
  case h_1 chosen => simp [chosen]
  case h_2 unset =>
    split
    case h_1 value valued => simp [unset, valued]
    case h_2 strange => simp [strange]

theorem name_eq_ok : reading.name text = .ok after ↔
    text ≠ [] ∧ { reading with program := some text } = after := by
  cases text <;> simp [name, programOf?]

theorem settle_eq_ok : reading.settle = .ok after ↔ reading.Settles after := by
  constructor
  case mp =>
    intro settles
    unfold settle at settles
    split at settles
    case h_1 idle =>
      cases settles
      exact .idle idle
    case h_2 waits =>
      obtain ⟨filled, rfl⟩ := name_eq_ok.mp settles
      exact .program filled waits
    case h_3 => cases settles
    case h_4 waits =>
      obtain ⟨unset, value, valued, rfl⟩ := choose_eq_ok.mp settles
      exact .setting waits unset valued
  case mpr =>
    rintro (idle | ⟨filled, waits⟩ | ⟨waits, unset, valued⟩) <;> unfold settle
    case idle => rw [idle]
    case program =>
      rw [waits]
      exact name_eq_ok.mpr ⟨filled, rfl⟩
    case setting =>
      rw [waits]
      exact choose_eq_ok.mpr ⟨unset, _, valued, rfl⟩

theorem Settles.pending (settles : reading.Settles settled) :
    settled.pending = none := by
  rcases settles with idle | _ | _
  case idle => exact idle
  all_goals rfl

theorem Settles.literal (settles : reading.Settles settled) :
    settled.literal = reading.literal := by
  rcases settles <;> rfl

theorem Settles.programRead (settles : reading.Settles settled) :
    settled.programRead = reading.programRead := by
  rcases settles <;> rfl

/-- A reading with nothing pending is settled as it is. -/
theorem settles_iff_of_idle (idle : reading.pending = none) :
    reading.Settles settled ↔ settled = reading := by
  constructor
  case mp =>
    rintro (_ | ⟨_, waits⟩ | ⟨waits, _, _⟩)
    case idle => rfl
    all_goals
      rw [idle] at waits
      cases waits
  case mpr =>
    rintro rfl
    exact .idle idle

theorem settles_count_iff (idle : reading.pending = none) {more : Nat} :
    (reading.count more).Settles settled ↔ settled = reading.count more :=
  settles_iff_of_idle idle

theorem count_count (reading : Reading) (more further : Nat) :
    (reading.count more).count further = reading.count (more + further) := by
  simp only [count]
  congr 1
  omega

theorem flip_eq_ok {switch : Switch} :
    reading.flip switch = .ok after ↔
      switch = .verbose ∧
        ∃ settled, reading.Settles settled ∧ settled.count 1 = after := by
  cases switch <;> simp [flip, bind_eq_ok, settle_eq_ok]

/-- A group of letters is taken exactly if each of them asks for more detail,
and counts as a whole. -/
theorem flipAll_eq_ok {letters : List Char} (filled : letters ≠ []) :
    reading.flipAll letters = .ok after ↔
      ∃ more settled, letters = List.replicate (more + 1) 'v' ∧
        reading.Settles settled ∧ settled.count (more + 1) = after := by
  induction letters generalizing reading with
  | nil => exact absurd rfl filled
  | cons letter rest ih =>
      have first : reading.flipAll (letter :: rest) = .ok after ↔
          letter = 'v' ∧ ∃ settled, reading.Settles settled ∧
            (settled.count 1).flipAll rest = .ok after := by
        rw [flipAll]
        split
        case h_1 unknown =>
          simp only [reduceCtorEq, false_iff, not_and]
          rintro rfl
          cases unknown
        case h_2 switch known =>
          rw [bind_eq_ok]
          simp only [flip_eq_ok]
          constructor
          case mp =>
            rintro ⟨_, ⟨rfl, settled, settles, rfl⟩, flips⟩
            exact ⟨Switch.ofLetter?_eq_verbose.mp known, settled, settles,
              flips⟩
          case mpr =>
            rintro ⟨rfl, settled, settles, flips⟩
            cases known
            exact ⟨_, ⟨rfl, settled, settles, rfl⟩, flips⟩
      rw [first]
      constructor
      case mp =>
        rintro ⟨rfl, settled, settles, flips⟩
        rcases rest with _ | ⟨letter, rest⟩
        case nil =>
          cases flips
          exact ⟨0, settled, rfl, settles, rfl⟩
        case cons =>
          obtain ⟨more, _, letters, counted, rfl⟩ :=
            (ih (List.cons_ne_nil _ _)).mp flips
          cases (settles_count_iff settles.pending).mp counted
          refine ⟨more + 1, settled, congrArg _ letters, settles, ?_⟩
          rw [count_count, Nat.add_comm 1]
      case mpr =>
        rintro ⟨more, settled, letters, settles, rfl⟩
        obtain ⟨rfl, rfl⟩ := List.cons.inj letters
        refine ⟨rfl, settled, settles, ?_⟩
        rcases more with _ | more
        case zero => rfl
        case succ =>
          rw [ih (by simp)]
          refine ⟨more, _, rfl, (settles_count_iff settles.pending).mpr rfl, ?_⟩
          rw [count_count, Nat.add_comm 1]

theorem positional_eq_ok :
    reading.positional text = .ok after ↔
      ∃ settled, reading.Settles settled ∧ settled.programRead = false ∧
        { settled with
          programRead := true,
          pending := some (.program text) } = after := by
  unfold positional
  split
  case isTrue read =>
    simp only [reduceCtorEq, false_iff]
    rintro ⟨settled, settles, unread, _⟩
    rw [settles.programRead, read] at unread
    cases unread
  case isFalse unread =>
    rw [Bool.not_eq_true] at unread
    rw [bind_eq_ok]
    constructor
    case mp =>
      rintro ⟨settled, settles, same⟩
      rw [settle_eq_ok] at settles
      cases same
      exact ⟨settled, settles, settles.programRead.trans unread, rfl⟩
    case mpr =>
      rintro ⟨settled, settles, _, rfl⟩
      exact ⟨settled, settle_eq_ok.mpr settles, rfl⟩

/-- A plain argument is the value that is waited for, or else the program. -/
theorem plain_eq_ok :
    reading.plain text = .ok after ↔
      (∃ kind, reading.literal = false ∧
        reading.pending = some (.setting kind none) ∧
        { reading with pending := some (.setting kind (some text)) } =
          after) ∨
      ∃ settled, reading.Settles settled ∧ settled.programRead = false ∧
        { settled with
          programRead := true,
          pending := some (.program text) } = after := by
  unfold plain
  split
  case h_1 kind waits =>
    have unsettled : ∀ settled, ¬ reading.Settles settled := by
      rintro _ (idle | ⟨_, other⟩ | ⟨other, _, _⟩)
      case idle =>
        rw [waits] at idle
        cases idle
      all_goals
        rw [waits] at other
        cases other
    split
    case isTrue literal => simp [positional_eq_ok, unsettled, literal]
    case isFalse unended => simp [unsettled, unended, waits]
  case h_2 waits =>
    rw [positional_eq_ok, iff_or_self]
    rintro ⟨kind, _, awaited, _⟩
    exact (waits kind awaited).elim

theorem begin_eq_ok {kind : Setting} {value : Option (List Char)} :
    reading.begin kind value = .ok after ↔
      ∃ settled, reading.Settles settled ∧
        match value with
        | none =>
          { settled with pending := some (.setting kind none) } = after
        | some text => settled.choose kind text = .ok after := by
  cases value <;> simp [begin, bind_eq_ok, settle_eq_ok]

theorem long_eq_ok {name : List Char} {value : Option (List Char)} :
    reading.long name value = .ok after ↔
      (∃ kind, Setting.name kind = name ∧
        reading.begin kind value = .ok after) ∨
      name = "verbose".toList ∧ value = none ∧
        ∃ settled, reading.Settles settled ∧ settled.count 1 = after := by
  unfold long
  split
  case h_1 kind known =>
    have named := Setting.ofName?_eq_some.mp known
    constructor
    case mp => exact fun begins => .inl ⟨kind, named, begins⟩
    case mpr =>
      rintro (⟨other, rfl, begins⟩ | ⟨rfl, _, _⟩)
      case inl =>
        rw [Setting.ofName?_eq_some.mpr rfl] at known
        cases known
        exact begins
      case inr => cases known
  case h_2 unknown =>
    have unnamed : ∀ kind, Setting.name kind ≠ name := by
      intro kind named
      rw [Setting.ofName?_eq_some.mpr named] at unknown
      cases unknown
    simp only [unnamed, false_and, exists_false, false_or]
    split
    case h_1 strange =>
      simp only [reduceCtorEq, false_iff, not_and]
      rintro rfl
      cases strange
    case h_2 switch known =>
      rcases value with _ | text
      case none =>
        simp only [flip_eq_ok, true_and]
        rw [← Switch.ofName?_eq_verbose, known, Option.some.injEq]
      case some => simp

theorem next_of_unended (unended : reading.literal = false) :
    reading.next argument = reading.act (Token.ofArgument argument) := by
  unfold next
  rw [if_neg (by simp [unended])]

theorem follows_of_next (reads : reading.next argument = .ok after) :
    reading.Follows argument after := by
  rcases literal : reading.literal with _ | _
  case false =>
    have opened : ∀ {settled}, reading.Settles settled →
        settled.literal = false := fun settles => settles.literal.trans literal
    rw [next_of_unended literal] at reads
    unfold act at reads
    split at reads
    case h_1 text form =>
      obtain ⟨rfl, _⟩ := Token.eq_of_plain form
      rcases plain_eq_ok.mp reads with
        ⟨kind, _, waits, rfl⟩ | ⟨settled, settles, unread, rfl⟩
      case inl => exact .value literal waits form
      case inr => exact .action settles (.program unread (.inr form))
    case h_2 form =>
      cases reads
      exact .terminator literal form
    case h_3 name value form =>
      rcases long_eq_ok.mp reads with
        ⟨kind, rfl, begins⟩ | ⟨rfl, rfl, settled, settles, rfl⟩
      case inl =>
        obtain ⟨settled, settles, begun⟩ := begin_eq_ok.mp begins
        rcases value with _ | text
        case none =>
          cases begun
          exact .action settles (.setting (opened settles) form)
        case some =>
          obtain ⟨unset, value, valued, rfl⟩ := choose_eq_ok.mp begun
          exact .action settles (.choice (opened settles) form unset valued)
      case inr =>
        exact .action settles (.details (opened settles) (.inl ⟨form, rfl⟩))
    case h_4 letters form =>
      obtain ⟨more, settled, rfl, settles, rfl⟩ :=
        (flipAll_eq_ok (Token.ne_nil_of_short form)).mp reads
      exact .action settles (.details (opened settles) (.inr form))
  case true =>
    unfold next at reads
    rw [if_pos literal] at reads
    rcases plain_eq_ok.mp reads with
      ⟨_, unended, _, _⟩ | ⟨settled, settles, unread, rfl⟩
    case inl =>
      rw [literal] at unended
      cases unended
    case inr =>
      exact .action settles
        (.program unread (.inl (settles.literal.trans literal)))

theorem next_of_acts (settles : reading.Settles settled)
    (acts : settled.Acts argument after) :
    reading.next argument = .ok after := by
  have opened : settled.literal = false → reading.literal = false :=
    fun unended => settles.literal.symm.trans unended
  rcases acts with ⟨unread, plain⟩ | ⟨unended, form⟩ |
    ⟨unended, form, unset, valued⟩ | ⟨unended, counts⟩
  case program =>
    have named : reading.plain argument = .ok _ :=
      plain_eq_ok.mpr (.inr ⟨settled, settles, unread, rfl⟩)
    rcases plain with literal | form
    case inl =>
      unfold next
      rw [if_pos (settles.literal.symm.trans literal)]
      exact named
    case inr =>
      unfold next
      rw [form]
      exact (ite_self _).trans named
  case setting =>
    rw [next_of_unended (opened unended), form]
    exact long_eq_ok.mpr
      (.inl ⟨_, rfl, begin_eq_ok.mpr ⟨settled, settles, rfl⟩⟩)
  case choice =>
    have chosen := choose_eq_ok.mpr ⟨unset, _, valued, rfl⟩
    rw [next_of_unended (opened unended), form]
    exact long_eq_ok.mpr
      (.inl ⟨_, rfl, begin_eq_ok.mpr ⟨settled, settles, chosen⟩⟩)
  case details =>
    rw [next_of_unended (opened unended)]
    rcases counts with ⟨form, rfl⟩ | form
    case inl =>
      rw [form]
      exact long_eq_ok.mpr (.inr ⟨rfl, rfl, settled, settles, rfl⟩)
    case inr =>
      rw [form]
      exact (flipAll_eq_ok (by simp)).mpr ⟨_, settled, rfl, settles, rfl⟩

/-- What reading an argument does, if it does not fail. -/
theorem next_eq_ok :
    reading.next argument = .ok after ↔ reading.Follows argument after := by
  refine ⟨follows_of_next, ?_⟩
  rintro (⟨unended, form⟩ | ⟨unended, waits, form⟩ | ⟨settles, acts⟩)
  case terminator =>
    rw [next_of_unended unended, form]
    rfl
  case value =>
    rw [next_of_unended unended, form]
    exact plain_eq_ok.mpr (.inl ⟨_, unended, waits, rfl⟩)
  case action => exact next_of_acts settles acts

end Reading

end CommandLine

end ChipEight
